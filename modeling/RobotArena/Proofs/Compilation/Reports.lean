import RobotArena.Proofs.Compilation.Tick

/-!
# What reports tell

A report that waits to be taken over comes from its job, run on the library as it was at some time.
So a finished compile has asked for what its job asks that library for.
-/

namespace RobotArena

/-- What a job asks a library for: everything that its text includes, itself or through others. -/
def Job.asked (job : Job) (library : Library) : List SourceId :=
  match library.text? job.source with
  | none => []
  | some text =>
    (Assembly.expand (library.textsOf job.source.owner) job.source.path text).asked.map
      job.source.sibling

theorem Job.asked_of_finished {job : Job} {externals : List Signature} {library : Library}
    {dependencies : List SourceId}
    (finished : (job.outcome externals library).1.dependencies? = some dependencies) :
    dependencies = job.asked library := by
  unfold outcome at finished
  unfold asked
  cases root : library.text? job.source with
  | none =>
    rw [root] at finished
    cases finished
  | some text =>
    simp only [root, compile] at finished
    split at finished
    · exact (Option.some.inj finished).symm
    · exact (Option.some.inj finished).symm
    · cases finished

/-- A report tells what its job finds in some library. -/
def Report.Honest (externals : List Signature) (r : Report) : Prop :=
  ∃ library, r.outcome = (r.job.outcome externals library).1

/-- The reports that have not been taken over tell what their jobs find. -/
structure Yard.Honest (externals : List Signature) (y : Yard) : Prop where
  given : y.externals = externals
  reports : ∀ r ∈ y.reports, r.Honest externals

namespace Yard.Honest

variable {externals : List Signature} {y y' : Yard}

/-- Reports that go do not matter, nor do marks on those that stay. -/
theorem of_reports (h : y.Honest externals) (same : y'.externals = y.externals)
    (old : ∀ r' ∈ y'.reports, ∃ r ∈ y.reports, r'.job = r.job ∧ r'.outcome = r.outcome) :
    y'.Honest externals := by
  refine ⟨same.trans h.given, fun r' member => ?_⟩
  obtain ⟨r, before, job, outcome⟩ := old r' member
  obtain ⟨library, found⟩ := h.reports r before
  exact ⟨library, by rw [outcome, job, found]⟩

theorem run (h : y.Honest externals) (index : Nat) : (y.run index).Honest externals := by
  unfold Yard.run
  split
  · exact h
  · rename_i t _
    refine ⟨h.given, fun r member => ?_⟩
    simp only [Yard.reports, List.append_assoc, List.mem_append, List.mem_singleton] at member
    rcases member with finished | rfl | sent
    · exact h.reports r (List.mem_append_left _ finished)
    · -- the job that runs now finds what is in the library now
      exact ⟨y.library, by rw [← h.given]; rfl⟩
    · exact h.reports r (List.mem_append_right _ sent)

theorem send (h : y.Honest externals) (index : Nat) : (y.send index).2.Honest externals := by
  unfold Yard.send
  split
  · exact h
  · rename_i r found
    refine h.of_reports rfl fun r' member => ⟨r', ?_, rfl, rfl⟩
    simp only [Yard.reports, List.mem_append, List.mem_singleton] at member
    rcases member with finished | sent | rfl
    · exact List.mem_append_left _ (List.mem_of_mem_eraseIdx finished)
    · exact List.mem_append_right _ sent
    · exact List.mem_append_left _ (List.mem_of_getElem? found)

theorem performAll (h : y.Honest externals) (errands : List Errand) :
    (y.performAll errands).2.Honest externals := by
  induction errands generalizing y with
  | nil => exact h
  | cons errand rest ih =>
    refine ih ?_
    cases errand with
    | run index => exact h.run index
    | send index => exact h.send index

theorem mark (h : y.Honest externals) (concerned : SourceId → Bool) (change : Fate → Fate) :
    (y.mark concerned change).Honest externals := by
  refine h.of_reports rfl fun r' member => ?_
  have marked : (y.mark concerned change).reports = y.reports.map (.mark concerned change) :=
    (List.map_append).symm
  rw [marked] at member
  obtain ⟨r, before, rfl⟩ := List.mem_map.mp member
  exact ⟨r, before, rfl, rfl⟩

end Yard.Honest

namespace Plant

variable {externals : List Signature} {p q : Plant} {plan : Plan} {now : Nat}

theorem honest_stage (h : p.yard.Honest externals) (stage : Stage plan now p q) :
    q.yard.Honest externals := by
  cases stage with
  | offer source =>
    rcases p.offer_cases plan now source with same | ⟨r, _, _, refused | ⟨errands, accepted⟩⟩
    · rwa [same]
    · rw [refused]
      exact h
    · rw [accepted]
      have held : (p.yard.accept ⟨source, r.generation⟩).Honest externals := ⟨h.given, h.reports⟩
      exact held.performAll errands
  | rearrange inbox demanded => exact h
  | takeOver =>
    cases sent : p.yard.sent with
    | nil => rwa [takeOver_nil sent]
    | cons r rest =>
      rw [takeOver_cons sent]
      have left : ({ p.yard with sent := rest } : Yard).Honest externals := by
        refine h.of_reports rfl fun r' member => ⟨r', ?_, rfl, rfl⟩
        rw [Yard.reports, sent]
        rcases List.mem_append.mp member with finished | later
        · exact List.mem_append_left _ finished
        · exact List.mem_append_right _ (List.mem_cons_of_mem _ later)
      exact left.mark _ _
  | finalize source => exact h

theorem honest_step (synced : p.Synced) (h : p.yard.Honest externals) (event : Event) :
    (p.step event).yard.Honest externals := by
  cases event with
  | supply source state => exact ⟨h.given, h.reports⟩
  | upload source state now =>
    have supplied : (p.supply source state).yard.Honest externals := ⟨h.given, h.reports⟩
    exact supplied.mark _ _
  | invalidate source now => exact h.mark _ _
  | publish source program now => exact h.mark _ _
  | collect inUse => exact h.mark _ _
  | work errands => exact h.performAll errands
  | tick plan now =>
    exact (stages_tick synced).keep (P := fun p => p.yard.Honest externals) honest_stage h
  | _ => exact h

theorem honest_run (settings : SchedulerSettings) (externals : List Signature)
    (events : List Event) : ((new settings externals).run events).yard.Honest externals := by
  have start : (new settings externals).Synced ∧ (new settings externals).yard.Honest externals :=
    ⟨rfl, ⟨rfl, fun _ member => absurd member List.not_mem_nil⟩⟩
  exact (run_keeps (P := fun p => p.Synced ∧ p.yard.Honest externals)
    (fun _ event kept _ => ⟨step_synced event kept.1, honest_step kept.1 kept.2 event⟩) start
    (follows_any _ events)).2

end Plant

end RobotArena
