import RobotArena.Proofs.Compilation.Plant

/-!
# What jobs read

A job reads texts that the library holds, and starts fetches, which change no text. So what a job has
read is what the library holds until a source is given another state.
-/

namespace RobotArena

namespace Library

/-- Each source is known once. -/
def Distinct (l : Library) : Prop :=
  (l.entries.map Prod.fst).Nodup

theorem distinct_set {l : Library} (distinct : l.Distinct) (source : SourceId) (a : Availability) :
    (l.set source a).Distinct := by
  refine List.nodup_cons.mpr ⟨?_, List.Nodup.sublist (List.filter_sublist.map Prod.fst) distinct⟩
  intro member
  obtain ⟨entry, kept, same⟩ := List.mem_map.mp member
  exact absurd same (by simpa using (List.mem_filter.mp kept).2)

theorem distinct_put {l : Library} (distinct : l.Distinct) (source : SourceId)
    (state : Option Availability) : (l.put source state).Distinct := by
  cases state with
  | none => exact List.Nodup.sublist (List.filter_sublist.map Prod.fst) distinct
  | some a => exact distinct_set distinct source a

theorem distinct_fetch {l : Library} (distinct : l.Distinct) (source : SourceId) :
    (l.fetch source).Distinct := by
  unfold fetch
  split
  · exact distinct
  · exact distinct_set distinct source _

/-- A fetch that starts brings no text yet. -/
theorem text?_fetch (l : Library) (source t : SourceId) : (l.fetch source).text? t = l.text? t := by
  unfold text?
  rw [find?_fetch]
  by_cases same : t = source
  · subst same
    cases known : l.find? t with
    | none => simp
    | some a => simp
  · rw [if_neg same]

theorem text?_put (l : Library) {source t : SourceId} (other : t ≠ source)
    (state : Option Availability) : (l.put source state).text? t = l.text? t := by
  unfold text?
  cases state with
  | none => rw [put, find?_remove, if_neg other]
  | some a => rw [put, find?_set, if_neg other]

theorem lookup_textsOf {l : Library} (distinct : l.Distinct) (path : String) (owner : PeerId) :
    (l.textsOf owner).lookup path = l.text? ⟨path, owner⟩ := by
  unfold Distinct at distinct
  unfold textsOf text? find?
  generalize l.entries = entries at distinct
  induction entries with
  | nil => rfl
  | cons entry rest ih =>
    obtain ⟨source, a⟩ := entry
    obtain ⟨absent, later⟩ := List.nodup_cons.mp distinct
    rw [List.filterMap_cons, List.lookup_cons]
    by_cases same : source = ⟨path, owner⟩
    · subst same
      have unknown : rest.lookup ⟨path, owner⟩ = none := by
        refine List.lookup_eq_none_iff.mpr fun entry member => ?_
        have differ : entry.1 ≠ ⟨path, owner⟩ := fun same =>
          absent (List.mem_map.mpr ⟨entry, member, same⟩)
        simpa using Ne.symm differ
      cases a with
      | fetching fraction =>
        have none := ih later
        rw [unknown] at none
        simpa using none
      | available text => simp
    · have differ : ((⟨path, owner⟩ : SourceId) == source) = false := by simpa using Ne.symm same
      rw [differ, ← ih later]
      cases a with
      | fetching fraction => rfl
      | available text =>
        by_cases owned : source.owner = owner
        · have apart : (path == source.path) = false := by
            refine beq_eq_false_iff_ne.mpr fun equal => same ?_
            rw [equal, ← owned]
          simp [owned, List.lookup_cons, apart]
        · simp [owned]

/-- Two libraries with the same texts. -/
def Agrees (l l' : Library) : Prop :=
  ∀ source, l'.text? source = l.text? source

theorem Agrees.trans {l l' l'' : Library} (first : l.Agrees l') (second : l'.Agrees l'') :
    l.Agrees l'' :=
  fun source => (second source).trans (first source)

theorem Agrees.holds {l l' : Library} (agrees : l.Agrees l') (reading : SourceTexts) :
    l'.Holds reading ↔ l.Holds reading := by
  unfold Holds
  simp only [agrees _]

/-- Only what was read of the source matters when it is given another state. -/
theorem holds_put (l : Library) {source : SourceId} {reading : SourceTexts}
    (unread : source ∉ reading.map Prod.fst) (state : Option Availability) :
    (l.put source state).Holds reading ↔ l.Holds reading := by
  have same : ∀ x ∈ reading, (l.put source state).text? x.1 = l.text? x.1 := fun x member =>
    text?_put l (fun equal => unread (List.mem_map.mpr ⟨x, member, equal⟩)) state
  exact forall₂_congr fun x member => by rw [same x member]

theorem foldl_fetch (sources : List SourceId) (l : Library) :
    l.Agrees (sources.foldl fetch l) ∧ (l.Distinct → (sources.foldl fetch l).Distinct) := by
  induction sources generalizing l with
  | nil => exact ⟨fun _ => rfl, id⟩
  | cons source rest ih =>
    obtain ⟨agrees, distinct⟩ := ih (l.fetch source)
    exact ⟨Agrees.trans (l.text?_fetch source) agrees,
      fun before => distinct (distinct_fetch before source)⟩

end Library

namespace Job

theorem library_outcome (job : Job) (externals : List Signature) (l : Library) :
    l.Agrees (job.outcome externals l).2 ∧
      (l.Distinct → (job.outcome externals l).2.Distinct) := by
  unfold outcome
  split
  · exact Library.foldl_fetch _ l
  · exact ⟨l.text?_fetch job.source, fun distinct => Library.distinct_fetch distinct _⟩

theorem reading_holds {l : Library} (distinct : l.Distinct) (job : Job) :
    l.Holds (job.reading l) := by
  intro x member
  unfold reading at member
  cases root : l.text? job.source with
  | none =>
    rw [root] at member
    cases member
  | some text =>
    rw [root] at member
    rcases List.mem_cons.mp member with rfl | included
    · exact root
    · obtain ⟨path, _, found⟩ := List.mem_filterMap.mp included
      obtain ⟨read, known, rfl⟩ := Option.map_eq_some_iff.mp found
      rw [Library.lookup_textsOf distinct] at known
      exact known

end Job

/-- Whether a report brings a finished compile, and neither has its record been dropped since nor
has an upload or a published program outdated it. -/
def Report.Pending (r : Report) : Prop :=
  r.outcome.dependencies?.isSome ∧ r.fate.orphaned = false ∧ r.fate.touched = false

namespace Yard

/-- What pending reports have read is still so. -/
structure Fresh (y : Yard) : Prop where
  distinct : y.library.Distinct
  held : ∀ r ∈ y.reports, r.Pending → y.library.Holds r.reading

variable {y y' : Yard}

/-- Reports that go do not matter, nor do marks on those that stay. -/
theorem Fresh.of_reports (h : y.Fresh) (agrees : y.library.Agrees y'.library)
    (distinct : y'.library.Distinct)
    (old : ∀ r' ∈ y'.reports, r'.Pending → ∃ r ∈ y.reports, r.Pending ∧ r'.reading = r.reading) :
    y'.Fresh := by
  refine ⟨distinct, fun r' member pending => ?_⟩
  obtain ⟨r, before, pending, reading⟩ := old r' member pending
  rw [reading, agrees.holds]
  exact h.held r before pending

theorem Fresh.run (h : y.Fresh) (index : Nat) : (y.run index).Fresh := by
  unfold Yard.run
  split
  · exact h
  · rename_i t _
    obtain ⟨agrees, distinct⟩ := t.job.library_outcome y.externals y.library
    refine ⟨distinct h.distinct, fun r member pending => ?_⟩
    rw [agrees.holds]
    simp only [reports, List.append_assoc, List.mem_append, List.mem_singleton] at member
    rcases member with finished | rfl | sent
    · exact h.held r (List.mem_append_left _ finished) pending
    · exact t.job.reading_holds h.distinct
    · exact h.held r (List.mem_append_right _ sent) pending

theorem Fresh.send (h : y.Fresh) (index : Nat) : (y.send index).2.Fresh := by
  unfold Yard.send
  split
  · exact h
  · rename_i r found
    refine h.of_reports (fun _ => rfl) h.distinct fun r' member pending => ⟨r', ?_, pending, rfl⟩
    simp only [reports, List.mem_append, List.mem_singleton] at member
    rcases member with finished | sent | rfl
    · exact List.mem_append_left _ (List.mem_of_mem_eraseIdx finished)
    · exact List.mem_append_right _ sent
    · exact List.mem_append_left _ (List.mem_of_getElem? found)

theorem Fresh.performAll (h : y.Fresh) (errands : List Errand) : (y.performAll errands).2.Fresh := by
  induction errands generalizing y with
  | nil => exact h
  | cons errand rest ih =>
    refine ih ?_
    cases errand with
    | run index => exact h.run index
    | send index => exact h.send index

/-- Marks do not bring an outdated report back. -/
theorem Fresh.mark (h : y.Fresh) (concerned : SourceId → Bool) {change : Fate → Fate}
    (worse : ∀ f, ((change f).orphaned = false → f.orphaned = false) ∧
      ((change f).touched = false → f.touched = false)) : (y.mark concerned change).Fresh := by
  refine h.of_reports (fun _ => rfl) h.distinct fun r' member pending => ?_
  have marked : (y.mark concerned change).reports = y.reports.map (.mark concerned change) :=
    (List.map_append).symm
  rw [marked] at member
  obtain ⟨r, before, rfl⟩ := List.mem_map.mp member
  obtain ⟨finished, own, current⟩ := pending
  refine ⟨r, before, ⟨finished, ?_⟩, rfl⟩
  unfold Report.mark at own current
  dsimp only at own current
  split at own
  · rename_i here
    rw [if_pos here] at current
    exact ⟨(worse r.fate).1 own, (worse r.fate).2 current⟩
  · rename_i elsewhere
    rw [if_neg elsewhere] at current
    exact ⟨own, current⟩

theorem library_performAll (y : Yard) (errands : List Errand) :
    y.library.Agrees (y.performAll errands).2.library := by
  induction errands generalizing y with
  | nil => exact fun _ => rfl
  | cons errand rest ih =>
    refine Library.Agrees.trans ?_ (ih _)
    cases errand with
    | run index =>
      simp only [Yard.run]
      split
      · exact fun _ => rfl
      · rename_i t _
        exact (t.job.library_outcome y.externals y.library).1
    | send index =>
      simp only [Yard.send]
      split <;> exact fun _ => rfl

end Yard

end RobotArena
