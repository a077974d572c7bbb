import Mathlib.Data.String.Basic
import RobotArena.Proofs.Compilation.Docket

/-!
# What owners are told, and when

A pass tells the owners of all records that have looked differently since the last time, unless that
was too recently. So a record whose flag is down looks as its owner was told. Its version and its
diagnostics may be others than its owner was told: a program that is published for a record that is
done and has succeeded changes nothing that the flag watches.
-/

namespace RobotArena

namespace SourceId

/-- The strict order by path and then by owner. -/
def Before (s t : SourceId) : Prop :=
  s.path < t.path ∨ (s.path = t.path ∧ s.owner.bits.toNat < t.owner.bits.toNat)

theorem le_iff {s t : SourceId} :
    s.le t = true ↔
      s.path < t.path ∨ (s.path = t.path ∧ s.owner.bits.toNat ≤ t.owner.bits.toNat) := by
  unfold le
  by_cases same : s.path = t.path
  · simp [same]
  · simp [same]

theorem le_trans (s t u : SourceId) (first : s.le t = true) (second : t.le u = true) :
    s.le u = true := by
  rw [le_iff] at first second ⊢
  rcases first with first | ⟨same, first⟩
  · rcases second with second | ⟨same', _⟩
    · exact .inl (lt_trans first second)
    · exact .inl (same' ▸ first)
  · rcases second with second | ⟨same', second⟩
    · exact .inl (same ▸ second)
    · exact .inr ⟨same.trans same', Nat.le_trans first second⟩

theorem le_total (s t : SourceId) : (s.le t || t.le s) = true := by
  rw [Bool.or_eq_true, le_iff, le_iff]
  rcases lt_trichotomy s.path t.path with below | same | above
  · exact .inl (.inl below)
  · rcases Nat.le_total s.owner.bits.toNat t.owner.bits.toNat with below | above
    · exact .inl (.inr ⟨same, below⟩)
    · exact .inr (.inr ⟨same.symm, above⟩)
  · exact .inr (.inl above)

theorem before_of_le {s t : SourceId} (below : s.le t = true) (differ : s ≠ t) : s.Before t := by
  rcases le_iff.mp below with first | ⟨same, owners⟩
  · exact .inl first
  · refine .inr ⟨same, Nat.lt_of_le_of_ne owners fun equal => differ ?_⟩
    have owner : s.owner.bits = t.owner.bits := BitVec.eq_of_toNat_eq equal
    cases s with
    | mk path o =>
      cases t with
      | mk path' o' =>
        cases o
        cases o'
        simp_all

end SourceId

/-! ### What a pass tells -/

theorem CompilationRecord.source_notices {r : CompilationRecord} {notice : Notice}
    (member : notice ∈ r.notices) : notice.source = r.source := by
  rcases List.mem_cons.mp member with rfl | diagnostic
  · rfl
  · obtain ⟨_, _, rfl⟩ := List.mem_map.mp diagnostic
    rfl

namespace Registry

variable {g : Registry} {now interval : Nat} {r : CompilationRecord} {t : SourceId}

theorem mem_syncDue :
    r ∈ g.syncDue now interval ↔ r ∈ g.records ∧ r.isSyncDue now interval = true := by
  rw [syncDue, List.mem_mergeSort, List.mem_filter]

theorem distinct_syncDue (distinct : g.sources.Nodup) :
    ((g.syncDue now interval).map (·.source)).Nodup := by
  have sorted := (List.mergeSort_perm (g.records.filter (·.isSyncDue now interval))
    fun r t => r.source.le t.source).map (·.source)
  exact sorted.nodup_iff.mpr (distinct.sublist (List.filter_sublist.map _))

/-- The records are in the order of their sources. -/
theorem sorted_syncDue (distinct : g.sources.Nodup) :
    (g.syncDue now interval).Pairwise fun a b => a.source.Before b.source := by
  have sorted : (g.syncDue now interval).Pairwise fun a b => a.source.le b.source = true :=
    List.pairwise_mergeSort (fun a b c => a.source.le_trans b.source c.source)
      (fun a b => a.source.le_total b.source) _
  have distinct' : ((g.syncDue now interval).map (·.source)).Nodup := distinct_syncDue distinct
  have apart := List.pairwise_map.mp distinct'
  exact (sorted.and apart).imp fun both => SourceId.before_of_le both.1 both.2

/-- The notices on a source in a pass over records. -/
def noticesOn (records : List CompilationRecord) (t : SourceId) : List Notice :=
  (records.flatMap CompilationRecord.notices).filter (·.source = t)

theorem noticesOn_absent {records : List CompilationRecord} (absent : ∀ r ∈ records, r.source ≠ t) :
    noticesOn records t = [] := by
  refine List.filter_eq_nil_iff.mpr fun notice member => ?_
  obtain ⟨r, listed, told⟩ := List.mem_flatMap.mp member
  rw [CompilationRecord.source_notices told]
  simpa using absent r listed

theorem noticesOn_only {records : List CompilationRecord}
    (distinct : (records.map (·.source)).Nodup) (listed : r ∈ records) :
    noticesOn records r.source = r.notices := by
  obtain ⟨before, after, rfl⟩ := List.append_of_mem listed
  rw [List.map_append, List.map_cons] at distinct
  obtain ⟨_, rest, apart⟩ := List.nodup_append.mp distinct
  have first : noticesOn before r.source = [] := noticesOn_absent fun other member =>
    apart _ (List.mem_map_of_mem member) _ List.mem_cons_self
  have last : noticesOn after r.source = [] := noticesOn_absent fun other member same =>
    (List.nodup_cons.mp rest).1 (List.mem_map.mpr ⟨other, member, same⟩)
  have own : r.notices.filter (·.source = r.source) = r.notices :=
    List.filter_eq_self.mpr fun notice member => by
      simpa using CompilationRecord.source_notices member
  unfold noticesOn at first last ⊢
  rw [List.flatMap_append, List.flatMap_cons, List.filter_append, List.filter_append, first, last,
    own, List.nil_append, List.append_nil]

end Registry

namespace Plant

open CompilationRecord (Passage)

variable {p : Plant} {now interval : Nat} {t : SourceId} {d : Docket} {r : CompilationRecord}

theorem told_eq (p : Plant) (t : SourceId) (now interval : Nat) :
    p.told t now interval =
      Registry.noticesOn (p.scheduler.registry.syncDue now interval) t := by
  have each (r : CompilationRecord) : r.outbound.map (·.notice) = r.notices := by
    rw [CompilationRecord.outbound, List.map_map]
    exact List.map_id _
  unfold told Registry.noticesOn Registry.sync
  rw [List.map_flatMap]
  simp only [each]

theorem told_of_due (distinct : p.scheduler.sources.Nodup) (found : p.record? t = some r)
    (due : r.isSyncDue now interval = true) : p.told t now interval = r.notices := by
  obtain ⟨member, rfl⟩ := (Registry.find?_eq_some_iff distinct).mp found
  rw [told_eq]
  exact Registry.noticesOn_only (Registry.distinct_syncDue distinct)
    (Registry.mem_syncDue.mpr ⟨member, due⟩)

theorem told_of_quiet (distinct : p.scheduler.sources.Nodup)
    (quiet : ∀ r, p.record? t = some r → r.isSyncDue now interval = false) :
    p.told t now interval = [] := by
  rw [told_eq]
  refine Registry.noticesOn_absent fun r member same => ?_
  obtain ⟨listed, due⟩ := Registry.mem_syncDue.mp member
  rw [quiet r ((Registry.find?_eq_some_iff distinct).mpr ⟨listed, same⟩)] at due
  cases due

theorem told_ne_nil (distinct : p.scheduler.sources.Nodup) (told : p.told t now interval ≠ []) :
    ∃ r, p.record? t = some r ∧ r.isSyncDue now interval = true := by
  by_contra none
  refine told (told_of_quiet distinct fun r found => Bool.eq_false_iff.mpr fun due => ?_)
  exact none ⟨r, found, due⟩

/-! ### Dockets keep up with every event -/

/-- The owner of a record has been told of it as it is. -/
theorem tracks_told (tellings : List Telling) (now : Nat) (r : CompilationRecord) :
    ({ looks := [r.look], tellings := ⟨now, r.notices⟩ :: tellings } : Docket).Tracks
      (r.markSynced now) := by
  refine ⟨rfl, ?_, rfl, ?_⟩
  · simp [Docket.Changed, CompilationRecord.markSynced]
  · intro e told
    obtain rfl : ⟨now, r.notices⟩ = e := Option.some.inj told
    refine ⟨r, rfl, rfl, rfl, Nat.le_refl _, fun published => ?_, fun _ _ => ⟨rfl, rfl⟩⟩
    cases published

theorem holds_sync (distinct : p.scheduler.sources.Nodup) (h : d.Holds (p.record? t))
    (now interval : Nat) :
    (p.docketAfter t d (.sync now interval)).Holds ((p.step (.sync now interval)).record? t) := by
  have record : (p.step (.sync now interval)).record? t =
      (p.record? t).map fun r => if r.isSyncDue now interval then r.markSynced now else r :=
    p.scheduler.registry.find?_sync now interval t
  by_cases due : ∃ r, p.record? t = some r ∧ r.isSyncDue now interval = true
  · obtain ⟨r, found, due⟩ := due
    have told := told_of_due distinct found due
    rw [found, Option.map_some, if_pos due] at record
    have after : p.docketAfter t d (.sync now interval) =
        { looks := [r.look], tellings := ⟨now, r.notices⟩ :: d.tellings } := by
      simp only [docketAfter, told, record]
      rfl
    rw [after, record]
    exact tracks_told d.tellings now r
  · have quiet (r : CompilationRecord) (found : p.record? t = some r) :
        r.isSyncDue now interval = false := Bool.eq_false_iff.mpr fun here => due ⟨r, found, here⟩
    have same : (p.step (.sync now interval)).record? t = p.record? t := by
      rw [record]
      cases found : p.record? t with
      | none => rfl
      | some r =>
        rw [Option.map_some, quiet r found]
        rfl
    have after : p.docketAfter t d (.sync now interval) =
        d.watch ((p.step (.sync now interval)).record? t) := by
      simp only [docketAfter, told_of_quiet distinct quiet]
      rfl
    rw [after, same]
    exact h.watch (.refl _)

theorem holds_step (synced : p.Synced) (orderly : p.Orderly) (distinct : p.scheduler.sources.Nodup)
    (h : d.Holds (p.record? t)) (event : Event) :
    (p.docketAfter t d event).Holds ((p.step event).record? t) := by
  have invalidated (q : Plant) (same : q.scheduler = p.scheduler) (source : SourceId) (now : Nat) :
      Passage (p.record? t) ((q.invalidate source now).record? t) := by
    have passage := passage_invalidate (p := q) (by rw [same]; exact orderly.consistent) source now t
    rwa [record?, same] at passage
  cases event with
  | supply source state => exact h.watch (.refl _)
  | upload source state now => exact h.watch (invalidated (p.supply source state) rfl source now)
  | ensure source now => exact h.watch (passage_ensure p.scheduler.registry source now t)
  | request source now => exact holds_request orderly h source now
  | invalidate source now => exact h.watch (invalidated p rfl source now)
  | publish source program now => exact holds_publish orderly h source program now
  | collect inUse => exact h.watch (passage_collect p inUse t)
  | sync now interval => exact holds_sync distinct h now interval
  | work errands => exact h.watch (.refl _)
  | tick plan now => exact holds_tick synced orderly h plan now

/-- In every run, the docket of a source tells of its record. -/
theorem docket_run (settings : SchedulerSettings) (externals : List Signature) (events : List Event)
    (t : SourceId) :
    ((new settings externals).docket t {} events).Holds
      (((new settings externals).run events).record? t) := by
  induction events using List.reverseRecOn with
  | nil => rfl
  | append_singleton events event ih =>
    rw [docket_concat, run_append]
    exact holds_step (run_synced settings externals events) (orderly_run settings externals events)
      (distinct_run settings externals events) ih event

/-! ### Owners are not told too often -/

/-- When an event happens, if it matters. -/
def Event.instant? : Event → Option Nat
  | .upload _ _ now | .ensure _ now | .request _ now | .invalidate _ now | .publish _ _ now
  | .sync now _ | .tick _ now => some now
  | .supply _ _ | .collect _ | .work _ => none

/-- The instants of events never go back, and all passes keep the same interval. -/
structure Steady (interval : Nat) (events : List Event) : Prop where
  ordered : (events.filterMap Event.instant?).Pairwise (· ≤ ·)
  fixed : ∀ now interval', .sync now interval' ∈ events → interval' = interval

theorem Steady.init {event : Event} {events : List Event} (h : Steady interval (events ++ [event])) :
    Steady interval events :=
  ⟨h.ordered.sublist ((List.sublist_append_left _ _).filterMap _),
    fun now interval' member => h.fixed now interval' (List.mem_append_left _ member)⟩

theorem Steady.le_last {event : Event} {events : List Event}
    (h : Steady interval (events ++ [event])) (at' : event.instant? = some now) :
    ∀ earlier ∈ events.filterMap Event.instant?, earlier ≤ now := by
  intro earlier member
  have ordered := h.ordered
  rw [List.filterMap_append] at ordered
  refine (List.pairwise_append.mp ordered).2.2 earlier member now ?_
  exact List.mem_filterMap.mpr ⟨event, List.mem_cons_self, at'⟩

theorem tellings_watchAll (t : SourceId) (d : Docket) (states : List Plant) :
    (watchAll t d states).tellings = d.tellings ∨ (watchAll t d states).tellings = [] := by
  induction states generalizing d with
  | nil => exact .inl rfl
  | cons q rest ih =>
    have first : (d.watch (q.record? t)).tellings = d.tellings ∨
        (d.watch (q.record? t)).tellings = [] := by
      cases q.record? t with
      | none => exact .inr rfl
      | some r => exact .inl rfl
    rcases ih (d.watch (q.record? t)) with kept | gone
    · exact first.imp kept.trans kept.trans
    · exact .inr gone

/-- Only a pass that tells of a source adds to what its docket has told. -/
theorem tellings_docketAfter (p : Plant) (t : SourceId) (d : Docket) (event : Event) :
    (p.docketAfter t d event).tellings = d.tellings ∨ (p.docketAfter t d event).tellings = [] ∨
      ∃ now interval, event = .sync now interval ∧ p.told t now interval ≠ [] ∧
        (p.docketAfter t d event).tellings = ⟨now, p.told t now interval⟩ :: d.tellings := by
  have watched := tellings_watchAll t d (p.moments event)
  cases event with
  | sync now interval =>
    by_cases none : p.told t now interval = []
    · have after : p.docketAfter t d (.sync now interval) =
          watchAll t d (p.moments (.sync now interval)) := by
        simp only [docketAfter, none]
        rfl
      rw [after]
      exact watched.imp_right .inl
    · have after : (p.docketAfter t d (.sync now interval)).tellings =
          ⟨now, p.told t now interval⟩ :: d.tellings := by
        simp [docketAfter, none]
      exact .inr (.inr ⟨now, interval, rfl, none, after⟩)
  | _ => exact watched.imp_right .inl

/-- What was told keeps the interval, came at the instants of passes, and is what records tell. -/
structure Spaced (interval : Nat) (t : SourceId) (instants : List Nat) (d : Docket) : Prop where
  apart : d.tellings.Pairwise fun later earlier => earlier.now + interval ≤ later.now
  known : ∀ e ∈ d.tellings, e.now ∈ instants
  shown : ∀ e ∈ d.tellings, ∃ r : CompilationRecord, r.source = t ∧ e.notices = r.notices

theorem Spaced.later {instants later : List Nat} (h : Spaced interval t instants d)
    (more : ∀ now ∈ instants, now ∈ later) : Spaced interval t later d :=
  ⟨h.apart, fun e member => more _ (h.known e member), h.shown⟩

/-- Another telling that came late enough after the last one. -/
theorem Spaced.tell {instants : List Nat} (h : Spaced interval t instants d) (listed : now ∈ instants)
    (own : r.source = t) (rested : ∀ e ∈ d.tellings.head?, e.now + interval ≤ now) {d' : Docket}
    (told : d'.tellings = ⟨now, r.notices⟩ :: d.tellings) : Spaced interval t instants d' := by
  refine ⟨?_, ?_, ?_⟩
  · rw [told]
    refine List.pairwise_cons.mpr ⟨fun e member => ?_, h.apart⟩
    -- what was told before the last telling came even earlier
    have apart := h.apart
    cases tellings : d.tellings with
    | nil =>
      rw [tellings] at member
      cases member
    | cons last rest =>
      rw [tellings] at member rested apart
      have first : last.now + interval ≤ now := rested last rfl
      rcases List.mem_cons.mp member with rfl | older
      · exact first
      · have gap := (List.pairwise_cons.mp apart).1 e older
        show e.now + interval ≤ now
        omega
  · rw [told]
    exact List.forall_mem_cons.mpr ⟨listed, h.known⟩
  · rw [told]
    exact List.forall_mem_cons.mpr ⟨⟨r, own, rfl⟩, h.shown⟩

/-- A record is due if it has looked differently and its owner was not told too recently. -/
theorem due_iff (tracks : d.Tracks r) (past : ∀ e ∈ d.tellings, e.now ≤ now) :
    r.isSyncDue now interval = true ↔
      d.Changed ∧ ∀ e ∈ d.tellings.head?, e.now + interval ≤ now := by
  rw [CompilationRecord.isSyncDue, Bool.and_eq_true, tracks.raised, tracks.timed]
  refine and_congr_right fun _ => ?_
  cases tellings : d.tellings with
  | nil => simp
  | cons e rest =>
    have before : e.now ≤ now := past e (by rw [tellings]; exact List.mem_cons_self)
    simp only [List.head?_cons, Option.map_some, Option.all_some, decide_eq_true_eq,
      Option.mem_some_iff, forall_eq']
    omega

theorem spaced_run (settings : SchedulerSettings) (externals : List Signature) {events : List Event}
    (steady : Steady interval events) (t : SourceId) :
    Spaced interval t (events.filterMap Event.instant?)
      ((new settings externals).docket t {} events) := by
  induction events using List.reverseRecOn with
  | nil => exact ⟨List.Pairwise.nil, nofun, nofun⟩
  | append_singleton events event ih =>
    let p := (new settings externals).run events
    let d := (new settings externals).docket t {} events
    have h : Spaced interval t ((events ++ [event]).filterMap Event.instant?) d := by
      rw [List.filterMap_append]
      exact (ih steady.init).later fun now member => List.mem_append_left _ member
    rw [docket_concat]
    change Spaced interval t _ (p.docketAfter t d event)
    rcases tellings_docketAfter p t d event with kept | gone | ⟨now, interval', rfl, some, more⟩
    · exact ⟨by rw [kept]; exact h.apart, by rw [kept]; exact h.known, by rw [kept]; exact h.shown⟩
    · exact ⟨by rw [gone]; exact .nil, by rw [gone]; nofun, by rw [gone]; nofun⟩
    · -- the record was due, so the last telling is far enough back
      have distinct := distinct_run settings externals events
      obtain ⟨r, found, due⟩ := told_ne_nil distinct some
      obtain rfl : interval' = interval :=
        steady.fixed now interval' (List.mem_append_right _ List.mem_cons_self)
      have listed : now ∈ (events ++ [Event.sync now interval']).filterMap Event.instant? :=
        List.mem_filterMap.mpr
          ⟨.sync now interval', List.mem_append_right _ List.mem_cons_self, rfl⟩
      have past : ∀ e ∈ d.tellings, e.now ≤ now := fun e member =>
        steady.le_last rfl e.now ((ih steady.init).known e member)
      have holds : d.Holds (p.record? t) := docket_run settings externals events t
      rw [found] at holds
      rw [told_of_due distinct found due] at more
      exact h.tell listed ((Registry.find?_eq_some_iff distinct).mp found).2
        ((due_iff holds past).mp due).2 more

/-- A record whose flag is down looks as its owner was told last. -/
theorem told_look (tracks : d.Tracks r) (clean : r.dirty = false) {e : Telling}
    (last : e ∈ d.tellings.head?) :
    ∃ before : CompilationRecord, e.notices = before.notices ∧ d.Since before r ∧
      ¬d.Changed ∧ before.look = r.look := by
  obtain ⟨before, notices, since⟩ := tracks.told e last
  have steady : ¬d.Changed := by
    rw [← tracks.raised, clean]
    exact Bool.false_ne_true
  refine ⟨before, notices, since, steady, ?_⟩
  by_contra differ
  exact steady ⟨_, List.mem_of_mem_head? since.first, _, List.mem_of_getLast? tracks.last, differ⟩

/-- When instants never go back and all passes keep the same interval, what is told of a record keeps
that interval. A pass tells of exactly the records that were set to another status, progress or
success since their owners were told last, or since they are there, and whose owners were not told
too recently; it tells each owner what the record is, once, in the order of the sources. And a record
whose flag is down shows what its owner was told last. -/
theorem passes_tell_every_change_once (settings : SchedulerSettings) (externals : List Signature)
    (events : List Event) (interval : Nat) (steady : Steady interval events) :
    let start := new settings externals
    let p := start.run events
    (∀ t, ((start.docket t {} events).tellings.Pairwise fun later earlier =>
        earlier.now + interval ≤ later.now) ∧
      ∀ e ∈ (start.docket t {} events).tellings, ∃ status progress success version,
        ∃ diagnostics : List Diagnostic, e.notices =
          .status t status progress success version :: diagnostics.map (.diagnostic t)) ∧
    (∀ now, (∀ earlier ∈ events.filterMap Event.instant?, earlier ≤ now) →
      ∃ due : List CompilationRecord,
        (p.scheduler.registry.sync now interval).1 = due.flatMap (fun r =>
          ⟨r.source.owner, .status r.source r.status r.progress r.success
              (min r.version CompilationRecord.maxVersion : Nat)⟩ ::
            r.diagnostics.map fun diagnostic =>
              ⟨r.source.owner, .diagnostic r.source diagnostic⟩) ∧
        (due.Pairwise fun a b => a.source.Before b.source) ∧
        ∀ r, r ∈ due ↔ p.record? r.source = some r ∧
          (start.docket r.source {} events).Changed ∧
          ∀ e ∈ (start.docket r.source {} events).tellings.head?, e.now + interval ≤ now) ∧
    ∀ t r, p.record? t = some r → r.dirty = false →
      ∀ e ∈ (start.docket t {} events).tellings.head?, ∃ version,
        ∃ diagnostics : List Diagnostic, e.notices =
          .status t r.status r.progress r.success version :: diagnostics.map (.diagnostic t) := by
  intro start p
  have distinct : p.scheduler.sources.Nodup := distinct_run settings externals events
  have tracks (t : SourceId) (r : CompilationRecord) (found : p.record? t = some r) :
      (start.docket t {} events).Tracks r := by
    have holds : (start.docket t {} events).Holds (p.record? t) :=
      docket_run settings externals events t
    rwa [found] at holds
  have spaced (t : SourceId) := spaced_run settings externals steady t
  refine ⟨fun t => ⟨(spaced t).apart, fun e member => ?_⟩, fun now past => ?_, ?_⟩
  · obtain ⟨r, rfl, notices⟩ := (spaced t).shown e member
    exact ⟨_, _, _, _, _, notices⟩
  · refine ⟨p.scheduler.registry.syncDue now interval, ?_, Registry.sorted_syncDue distinct,
      fun r => ?_⟩
    · refine congrArg (List.flatMap · _) (funext fun r => ?_)
      rw [CompilationRecord.outbound, CompilationRecord.notices, List.map_cons, List.map_map]
      rfl
    · rw [Registry.mem_syncDue]
      constructor
      · rintro ⟨listed, due⟩
        have found : p.record? r.source = some r :=
          (Registry.find?_eq_some_iff distinct).mpr ⟨listed, rfl⟩
        refine ⟨found, (due_iff (tracks _ r found) fun e member => ?_).mp due⟩
        exact past e.now ((spaced r.source).known e member)
      · rintro ⟨found, due⟩
        refine ⟨((Registry.find?_eq_some_iff distinct).mp found).1,
          (due_iff (tracks _ r found) fun e member => ?_).mpr due⟩
        exact past e.now ((spaced r.source).known e member)
  · intro t r found clean e last
    obtain ⟨before, notices, since, _, same⟩ := told_look (tracks t r found) clean last
    have own : r.source = t := ((Registry.find?_eq_some_iff distinct).mp found).2
    obtain ⟨status, progress, success⟩ := Look.mk.inj same
    refine ⟨(min before.version CompilationRecord.maxVersion : Nat), before.diagnostics, ?_⟩
    rw [notices, CompilationRecord.notices, status, progress, success, ← since.source, own]

/-- A record is told of, and a job for it is handed out right afterwards. -/
def heldBackRun : List Event :=
  [.request (.ofPath "main.asm") 0, .sync 0 1000, .tick .park 0]

theorem change_is_told_after_the_interval :
    Steady 1000 heldBackRun ∧
      ∃ progress success version,
        ⟨.server, .status (.ofPath "main.asm") .compiling progress success version⟩ ∈
          (((new {} []).run heldBackRun).scheduler.registry.sync 1000 1000).1 := by
  have steady : Steady 1000 heldBackRun := by
    refine ⟨by decide, fun now interval' member => ?_⟩
    simp [heldBackRun] at member
    exact member.2
  have compiling : (((new {} []).run heldBackRun).record? (.ofPath "main.asm")).map
      (fun r => (r.source, r.status)) = some (.ofPath "main.asm", .compiling) := by
    decide +kernel
  have changed : ((new {} []).docket (.ofPath "main.asm") {} heldBackRun).Changed := by
    decide +kernel
  have rested : ∀ e ∈ ((new {} []).docket (.ofPath "main.asm") {} heldBackRun).tellings.head?,
      e.now + 1000 ≤ 1000 := by
    decide +kernel
  obtain ⟨r, found, shown⟩ := Option.map_eq_some_iff.mp compiling
  obtain ⟨source, status⟩ := Prod.mk.inj shown
  obtain ⟨due, sent, _, listed⟩ :=
    (passes_tell_every_change_once {} [] heldBackRun 1000 steady).2.1 1000 (by decide)
  have member : r ∈ due := (listed r).mpr (by rw [source]; exact ⟨found, changed, rested⟩)
  refine ⟨steady, r.progress, r.success,
    (min r.version CompilationRecord.maxVersion : Nat), ?_⟩
  rw [sent, ← status, ← source]
  refine List.mem_flatMap.mpr ⟨r, member, ?_⟩
  rw [source]
  exact List.mem_cons_self

/-! ### Version and diagnostics -/

/-- A record whose flag is down has the version and the diagnostics that its owner was told last
exactly if no program was published for it since, as long as a notice can tell its version. -/
theorem told_version_is_current_iff (settings : SchedulerSettings) (externals : List Signature)
    (events : List Event) :
    let start := new settings externals
    ∀ t r, (start.run events).record? t = some r → r.dirty = false →
      ∀ e ∈ (start.docket t {} events).tellings.head?,
        (e.notices =
            .status t r.status r.progress r.success r.version :: r.diagnostics.map (.diagnostic t) ↔
          (start.docket t {} events).published = false ∧
            r.version ≤ CompilationRecord.maxVersion) := by
  intro start t r found clean e last
  have holds : (start.docket t {} events).Holds ((start.run events).record? t) :=
    docket_run settings externals events t
  rw [found] at holds
  have own : r.source = t :=
    ((Registry.find?_eq_some_iff (distinct_run settings externals events)).mp found).2
  obtain ⟨before, notices, since, steady, same⟩ := told_look holds clean last
  obtain ⟨status, progress, success⟩ := Look.mk.inj same
  rw [notices, CompilationRecord.notices, status, progress, success, ← since.source, own]
  constructor
  · intro equal
    have version : ((min before.version CompilationRecord.maxVersion : Nat) : Int) = r.version :=
      (Notice.status.inj (List.cons.inj equal).1).2.2.2.2
    -- the version of a published program is above the one that was told
    have unpublished : (start.docket t {} events).published = false := by
      refine Bool.eq_false_iff.mpr fun published => ?_
      have newer := since.published published
      omega
    have kept := (since.kept unpublished steady).1
    exact ⟨unpublished, by omega⟩
  · rintro ⟨unpublished, small⟩
    obtain ⟨version, diagnostics⟩ := since.kept unpublished steady
    rw [version] at small ⊢
    rw [diagnostics, Nat.min_eq_left small]

/-- The owner is told of a published program. -/
def publishedRun : List Event :=
  [.publish (.ofPath "main.asm") default 0, .sync 0 1000]

theorem published_version_is_told :
    ∃ (r : CompilationRecord) (e : Telling),
      ((new {} []).run publishedRun).record? (.ofPath "main.asm") = some r ∧
      e.notices = .status (.ofPath "main.asm") r.status r.progress r.success r.version ::
        r.diagnostics.map (.diagnostic (.ofPath "main.asm")) := by
  have clean : (((new {} []).run publishedRun).record? (.ofPath "main.asm")).map
      (fun r => (r.dirty, r.version)) = some (false, 1) := by
    decide +kernel
  have told : ((new {} []).docket (.ofPath "main.asm") {} publishedRun).tellings.head?.isSome := by
    decide +kernel
  have unpublished : ((new {} []).docket (.ofPath "main.asm") {} publishedRun).published = false := by
    decide +kernel
  obtain ⟨r, found, shown⟩ := Option.map_eq_some_iff.mp clean
  obtain ⟨e, last⟩ := Option.isSome_iff_exists.mp told
  obtain ⟨down, version⟩ := Prod.mk.inj shown
  refine ⟨r, e, found, ?_⟩
  refine (told_version_is_current_iff {} [] publishedRun _ r found down e last).mpr
    ⟨unpublished, ?_⟩
  rw [version]
  decide

/-- Another program is published for a record that is done; its owner is not told. -/
theorem republished_version_is_not_told :
    ¬∀ events t r, ((new {} []).run events).record? t = some r → r.dirty = false →
      ∀ e ∈ ((new {} []).docket t {} events).tellings.head?,
        e.notices =
          .status t r.status r.progress r.success r.version :: r.diagnostics.map (.diagnostic t) := by
  intro claim
  let events : List Event := publishedRun ++ [.publish (.ofPath "main.asm") default 1]
  have clean : (((new {} []).run events).record? (.ofPath "main.asm")).map
      (fun r => (r.dirty, r.version)) = some (false, 2) := by
    decide +kernel
  have told : ((new {} []).docket (.ofPath "main.asm") {} events).tellings.head?.map
      (·.notices) = some [.status (.ofPath "main.asm") .done none true 1] := by
    decide +kernel
  obtain ⟨r, found, shown⟩ := Option.map_eq_some_iff.mp clean
  obtain ⟨e, last, notices⟩ := Option.map_eq_some_iff.mp told
  obtain ⟨down, version⟩ := Prod.mk.inj shown
  have stale := claim events _ r found down e last
  rw [notices, version] at stale
  simp at stale

end Plant

end RobotArena
