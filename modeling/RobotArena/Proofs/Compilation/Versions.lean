import Mathlib.Data.List.Induction
import RobotArena.Proofs.Compilation.Book

/-!
# Versions

Every finished compile and every published program gets the next version, so that a version names one
program. A record has a version from the first compile that finishes on, and what it tells of its
last compile holds together.
-/

namespace RobotArena

namespace CompilationRecord

variable {r r' : CompilationRecord}

/-- What a record tells of its last compile holds together. -/
structure Consistent (r : CompilationRecord) : Prop where
  success : r.success = r.program.isSome
  quiet : r.diagnostics ≠ [] → r.Finished
  numbered : r.Finished → 0 < r.version

theorem Turn.title (turn : Turn r r') : r'.version = r.version ∧ r'.program = r.program := by
  cases turn with
  | told now => exact ⟨rfl, rfl⟩
  | renumbered generation => exact ⟨rfl, rfl⟩
  | scheduled later => simp only [schedule_eq, and_self]
  | started waiting => simp only [start_eq, and_self]
  | landed => exact ⟨rfl, rfl⟩
  | advanced progress => simp only [setProgress_eq, and_self]
  | finalized compiled => simp only [setStatus_eq, and_self]

theorem Turns.title (turns : Turns r r') : r'.version = r.version ∧ r'.program = r.program := by
  induction turns with
  | refl => exact ⟨rfl, rfl⟩
  | tail _ last ih => exact ⟨last.title.1.trans ih.1, last.title.2.trans ih.2⟩

namespace Consistent

theorem of_new (source : SourceId) (now : Nat) : Consistent { source, scheduledAt := now } :=
  ⟨rfl, fun some => absurd rfl some, by simp [Finished]⟩

theorem of_finish (version : Nat) (program : Option Program) (diagnostics : List Diagnostic)
    {status : CompilationStatus} (ended : status = .compiled ∨ status = .done)
    (positive : 0 < version) : (r.finish version program diagnostics status).Consistent := by
  rw [finish_eq]
  exact ⟨rfl, fun _ => ended, fun _ => positive⟩

theorem turn (h : r.Consistent) (turn : Turn r r') : r'.Consistent := by
  cases turn with
  | told now => exact ⟨h.success, h.quiet, h.numbered⟩
  | renumbered generation => exact ⟨h.success, h.quiet, h.numbered⟩
  | scheduled later =>
    rw [schedule_eq]
    exact ⟨h.success, fun some => absurd rfl some, by simp [Finished]⟩
  | started waiting =>
    have none : r.diagnostics = [] := by
      by_contra some
      rcases h.quiet some with compiled | done
      · rw [waiting] at compiled
        cases compiled
      · rw [waiting] at done
        cases done
    rw [start_eq]
    exact ⟨h.success, fun some => absurd none some, by simp [Finished]⟩
  | landed => exact ⟨h.success, h.quiet, h.numbered⟩
  | advanced progress =>
    rw [setProgress_eq]
    exact ⟨h.success, h.quiet, h.numbered⟩
  | finalized compiled =>
    rw [setStatus_eq]
    exact ⟨h.success, fun _ => .inr rfl, fun _ => h.numbered (.inl compiled)⟩

theorem turns (h : r.Consistent) (turns : Turns r r') : r'.Consistent := by
  induction turns with
  | refl => exact h
  | tail _ last ih => exact ih.turn last

theorem runnable_iff (h : r.Consistent) :
    r.runnable?.isSome ↔ r.status = .done ∧ r.success = true := by
  unfold runnable?
  split
  · rename_i done
    rw [Option.isSome_map, ← h.success]
    exact ⟨fun _ => done, fun both => both.2⟩
  · rename_i other
    exact ⟨fun none => absurd none Bool.false_ne_true, fun both => absurd both other⟩

end Consistent

end CompilationRecord

namespace Registry

open CompilationRecord (Turns)

variable {g g' : Registry} {t : SourceId}

/-- The version and the program of the record of a source. -/
def title? (g : Registry) (t : SourceId) : Option (Nat × Option Program) :=
  (g.find? t).map fun r => (r.version, r.program)

theorem title?_eq_none : g.title? t = none ↔ g.find? t = none :=
  Option.map_eq_none_iff

theorem Turned.title (turned : Turned g g') (t : SourceId) : g'.title? t = g.title? t := by
  have turns := turned.turns t
  unfold title?
  generalize g.find? t = before at turns
  generalize g'.find? t = after at turns
  cases turns with
  | none => rfl
  | some turns =>
    obtain ⟨version, program⟩ := CompilationRecord.Turns.title turns
    simp only [Option.map_some, version, program]

/-- An entry gives one record the next version, and no other record, or at most opens a record
without a version. -/
theorem Entry.titles (entry : Entry g g') :
    (g'.nextVersion = g.nextVersion ∧ ∀ t, g'.title? t = g.title? t ∨
      (g.title? t = none ∧ g'.title? t = some (0, none))) ∨
    (g'.nextVersion = g.nextVersion + 1 ∧ ∃ source program, ∀ t, g'.title? t =
      if t = source then (g.title? t).map fun _ => (g.nextVersion, program) else g.title? t) := by
  cases entry with
  | turned turned => exact .inl ⟨turned.next, fun t => .inl (turned.title t)⟩
  | opened source now absent next found =>
    refine .inl ⟨next, fun t => ?_⟩
    unfold title?
    rw [found]
    split
    · rename_i same
      subst same
      exact .inr ⟨by rw [absent]; rfl, rfl⟩
    · exact .inl rfl
  | issued source before turns program diagnostics status ended next found =>
    refine .inr ⟨next, source, program, fun t => ?_⟩
    unfold title?
    rw [found]
    split
    · rw [Option.map_map, Option.map_map]
      refine Option.map_congr fun r _ => ?_
      simp only [Function.comp_apply, CompilationRecord.finish_eq]
    · rfl

theorem title?_collect (g : Registry) (inUse : SourceId → Bool) (t : SourceId) :
    (g.collect inUse).title? t = if inUse t then g.title? t else none := by
  unfold title?
  rw [find?_collect]
  split <;> rfl

/-- Every version that a record has was handed out, and to no other record. -/
structure Versioned (g : Registry) : Prop where
  positive : 0 < g.nextVersion
  below : ∀ t v program, g.title? t = some (v, program) → v < g.nextVersion
  distinct : ∀ t t' v program program', g.title? t = some (v, program) →
    g.title? t' = some (v, program') → v ≠ 0 → t = t'

namespace Versioned

theorem empty : Versioned {} :=
  ⟨Nat.one_pos, nofun, nofun⟩

theorem entry (h : g.Versioned) (entry : Entry g g') : g'.Versioned := by
  obtain ⟨next, titles⟩ | ⟨next, source, program, titles⟩ := entry.titles
  · have old : ∀ t v program, g'.title? t = some (v, program) → v ≠ 0 →
        g.title? t = some (v, program) := by
      intro t v program found nonzero
      obtain same | ⟨_, opened⟩ := titles t
      · rwa [← same]
      · rw [opened] at found
        cases found
        exact absurd rfl nonzero
    refine ⟨by rw [next]; exact h.positive, ?_, ?_⟩
    · intro t v program found
      rw [next]
      by_cases zero : v = 0
      · rw [zero]
        exact h.positive
      · exact h.below t v program (old t v program found zero)
    · intro t t' v a b found found' nonzero
      exact h.distinct t t' v a b (old t v a found nonzero) (old t' v b found' nonzero) nonzero
  · have origin : ∀ t v a, g'.title? t = some (v, a) →
        (t = source ∧ v = g.nextVersion) ∨ (t ≠ source ∧ g.title? t = some (v, a)) := by
      intro t v a found
      rw [titles] at found
      split at found
      · rename_i same
        obtain ⟨_, _, equal⟩ := Option.map_eq_some_iff.mp found
        exact .inl ⟨same, (congrArg Prod.fst equal).symm⟩
      · rename_i other
        exact .inr ⟨other, found⟩
    refine ⟨by omega, ?_, ?_⟩
    · intro t v a found
      obtain ⟨_, new⟩ | ⟨_, old⟩ := origin t v a found
      · omega
      · have below := h.below t v a old
        omega
    · intro t t' v a b found found' nonzero
      -- the version handed out last is greater than all that records had before
      obtain ⟨here, new⟩ | ⟨_, old⟩ := origin t v a found
      · obtain ⟨here', _⟩ | ⟨_, old'⟩ := origin t' v b found'
        · rw [here, here']
        · have below := h.below t' v b old'
          omega
      · obtain ⟨_, new'⟩ | ⟨_, old'⟩ := origin t' v b found'
        · have below := h.below t v a old
          omega
        · exact h.distinct t t' v a b old old' nonzero

theorem collect (h : g.Versioned) (inUse : SourceId → Bool) : (g.collect inUse).Versioned := by
  have old : ∀ t title, (g.collect inUse).title? t = some title → g.title? t = some title := by
    intro t title found
    rw [title?_collect] at found
    split at found
    · exact found
    · cases found
  refine ⟨h.positive, fun t v a found => h.below t v a (old t _ found), ?_⟩
  intro t t' v a b found found' nonzero
  exact h.distinct t t' v a b (old t _ found) (old t' _ found') nonzero

end Versioned

theorem Entry.next_le (entry : Entry g g') : g.nextVersion ≤ g'.nextVersion := by
  obtain ⟨next, _⟩ | ⟨next, _⟩ := entry.titles
  · omega
  · omega

theorem Entries.next_le (entries : Entries g g') : g.nextVersion ≤ g'.nextVersion := by
  induction entries with
  | refl => exact Nat.le_refl _
  | tail _ last ih => exact Nat.le_trans ih last.next_le

/-- Every record holds together. -/
structure Consistent (g : Registry) : Prop where
  positive : 0 < g.nextVersion
  records : ∀ t r, g.find? t = some r → r.Consistent

namespace Consistent

theorem empty : Consistent {} :=
  ⟨Nat.one_pos, nofun⟩

theorem entry (h : g.Consistent) (entry : Entry g g') : g'.Consistent := by
  refine ⟨Nat.lt_of_lt_of_le h.positive entry.next_le, fun t r' found' => ?_⟩
  cases entry with
  | turned turned =>
    have turns := turned.turns t
    rw [found'] at turns
    cases found : g.find? t with
    | none =>
      rw [found] at turns
      cases turns
    | some r =>
      rw [found] at turns
      cases turns with
      | some turns => exact (h.records t r found).turns turns
  | opened source now absent next found =>
    rw [found] at found'
    split at found'
    · cases found'
      exact .of_new source now
    · exact h.records t r' found'
  | issued source before turns program diagnostics status ended next found =>
    rw [found] at found'
    split at found'
    · obtain ⟨r, _, rfl⟩ := Option.map_eq_some_iff.mp found'
      exact .of_finish _ _ _ ended h.positive
    · exact h.records t r' found'

theorem collect (h : g.Consistent) (inUse : SourceId → Bool) : (g.collect inUse).Consistent := by
  refine ⟨h.positive, fun t r found => ?_⟩
  rw [find?_collect] at found
  split at found
  · exact h.records t r found
  · cases found

end Consistent

/-! ### What each operation does to versions -/

theorem title?_ensure (g : Registry) (source : SourceId) (now : Nat) (t : SourceId) :
    (g.ensure source now).title? t =
      if t = source ∧ g.title? t = none then some (0, none) else g.title? t := by
  unfold title?
  rw [find?_ensure]
  by_cases same : t = source
  · subst same
    cases g.find? t with
    | none => simp
    | some r => simp
  · simp [same]

theorem title?_publish (g : Registry) (source : SourceId) (program : Program) (now : Nat)
    (t : SourceId) :
    (g.publish source program now).title? t =
      if t = source then some (g.nextVersion, some program) else g.title? t := by
  unfold title?
  rw [find?_publish]
  split
  · rename_i same
    rw [find?_ensure, if_pos same, Option.map_some, Option.map_some, CompilationRecord.finish_eq,
      nextVersion_ensure]
  · rfl

end Registry

namespace Scheduler

variable {s : Scheduler} {now : Nat} {result : JobResult} {t : SourceId}

theorem title?_commit (s : Scheduler) (now : Nat) (result : JobResult) (t : SourceId) :
    (s.commit now result).1.registry.title? t =
      if t = result.source ∧ (s.commit now result).2 = .committed then
        some (s.registry.nextVersion, result.outcome.program?)
      else s.registry.title? t := by
  unfold Registry.title?
  rw [find?_commit]
  by_cases same : t = result.source
  · subst same
    by_cases committed : (s.commit now result).2 = .committed
    · obtain ⟨expected, finished⟩ := (s.committed_iff now result).mp committed
      obtain ⟨r, found, generation⟩ := Option.map_eq_some_iff.mp expected
      rw [if_pos rfl, if_pos ⟨rfl, committed⟩, found, Option.map_some, Option.map_some,
        s.settled_finished now generation finished, CompilationRecord.finish_eq]
    · rw [← find?_commit, if_neg fun both => committed both.2]
      exact (turned_commit committed).title result.source
  · rw [if_neg same, if_neg fun both => same both.1]

theorem title?_commitAll (now : Nat) (results : List JobResult) (s : Scheduler)
    (spared : t ∉ (commitAll now results s).2.1) :
    (commitAll now results s).1.registry.title? t = s.registry.title? t := by
  induction results generalizing s with
  | nil => rfl
  | cons result rest ih =>
    rw [mem_commitAll_cons, not_or] at spared
    rw [commitAll_cons, ih _ spared.2, title?_commit, if_neg spared.1]

theorem commitAll_append (now : Nat) (first later : List JobResult) (s : Scheduler) :
    (commitAll now (first ++ later) s).1 = (commitAll now later (commitAll now first s).1).1 := by
  induction first generalizing s with
  | nil => rfl
  | cons result rest ih => rw [List.cons_append, commitAll_cons, commitAll_cons, ih]

/-- A source whose result is committed has one among the results that finishes a compile and is
expected from the start. -/
theorem expected_of_committed (now : Nat) (results : List JobResult) (s : Scheduler)
    (committed : t ∈ (commitAll now results s).2.1) :
    ∃ result ∈ results, result.source = t ∧ s.Expects result ∧ result.outcome.dependencies?.isSome := by
  induction results generalizing s with
  | nil => cases committed
  | cons result rest ih =>
    rcases mem_commitAll_cons.mp committed with ⟨same, here⟩ | later
    · obtain ⟨expected, finished⟩ := (s.committed_iff now result).mp here
      exact ⟨result, List.mem_cons_self, same.symm, expected, finished⟩
    · obtain ⟨other, member, same, expected, finished⟩ := ih _ later
      rw [Expects, generation_commit] at expected
      exact ⟨other, List.mem_cons_of_mem _ member, same, expected, finished⟩

theorem next_le_commitAll (now : Nat) (results : List JobResult) (s : Scheduler) :
    s.registry.nextVersion ≤ (commitAll now results s).1.registry.nextVersion := by
  induction results generalizing s with
  | nil => exact Nat.le_refl _
  | cons result rest ih =>
    rw [commitAll_cons]
    exact Nat.le_trans (s.entry_commit now result).next_le (ih _)

theorem versioned_commitAll (now : Nat) (results : List JobResult) (s : Scheduler)
    (versioned : s.registry.Versioned) : (commitAll now results s).1.registry.Versioned := by
  induction results generalizing s with
  | nil => exact versioned
  | cons result rest ih =>
    rw [commitAll_cons]
    exact ih _ (versioned.entry (s.entry_commit now result))

end Scheduler

namespace Plant

variable {p : Plant} {plan : Plan} {now : Nat} {t : SourceId}

/-- The version and the program of the record of a source. -/
abbrev title? (p : Plant) (t : SourceId) : Option (Nat × Option Program) :=
  p.scheduler.registry.title? t

/-- The next version to hand out. -/
abbrev nextVersion (p : Plant) : Nat :=
  p.scheduler.registry.nextVersion

/-- Whether an event finishes a compile of a source that it takes over, or publishes a program for
it. -/
def Supplies (p : Plant) (t : SourceId) : Event → Prop
  | .publish source _ _ => source = t
  | .tick plan now =>
    ∃ r ∈ (p.opened plan now).yard.sent, r.job.source = t ∧ (p.opened plan now).Answers r
  | _ => False

/-- A tick ends with the versions that the results taken over in it leave. -/
theorem title?_tick (synced : p.Synced) (t : SourceId) :
    (p.tick plan now).title? t =
      (Scheduler.commitAll now ((p.opened plan now).yard.sent.map Report.result)
        (p.opened plan now).scheduler).1.registry.title? t := by
  have inbox : (p.handOut plan now).scheduler.inbox =
      (p.opened plan now).yard.sent.map Report.result := handOut_synced plan now synced
  obtain ⟨committed, _, tick⟩ := tick_eq plan now synced
  have drained : (p.drained plan now).scheduler = _ := drained_scheduler synced
  rw [tick, foldl_finalize]
  show (Scheduler.finalizeAll committed (p.drained plan now).scheduler).registry.title? t = _
  rw [(Scheduler.turned_finalizeAll committed _).title, drained, inbox]

/-- A finished compile that is taken over gets the version that is next when its turn comes. -/
theorem title?_answered (synced : p.Synced) (exclusive : ∀ t, (p.desk t).Exclusive)
    {before after : List Report} {r : Report} (sent : (p.opened plan now).yard.sent = before ++ r :: after)
    (answers : (p.opened plan now).Answers r) :
    (p.tick plan now).title? r.job.source =
      some ((Scheduler.commitAll now (before.map Report.result)
        (p.opened plan now).scheduler).1.registry.nextVersion, r.outcome.program?) := by
  let s := (Scheduler.commitAll now (before.map Report.result) (p.opened plan now).scheduler).1
  have opened : ∀ t, ((p.opened plan now).desk t).Exclusive := fun t =>
    (effects_stages t (stages_opened p)).keep Desk.Exclusive.effect (exclusive t)
  have distinct : JobResult.Distinct (r.result :: after.map Report.result) := by
    have all := distinct_sent opened
    rw [sent, List.map_append] at all
    exact (List.pairwise_append.mp all).2.1
  have expected : s.Expects r.result := by
    rw [Scheduler.Expects, Scheduler.generation_commitAll]
    exact answers.1
  have committed : (s.commit now r.result).2 = .committed :=
    (s.committed_iff now r.result).mpr ⟨expected, answers.2⟩
  -- nothing that is taken over later in this tick replaces the version
  have unexpected : ∀ other ∈ after.map Report.result, other.source = r.job.source →
      ¬(s.commit now r.result).1.Expects other := Scheduler.unexpected_rest distinct expected
  have spared := Scheduler.commitAll_unexpected now _ _ unexpected
  rw [title?_tick synced, sent, List.map_append, Scheduler.commitAll_append, List.map_cons,
    Scheduler.commitAll_cons, Scheduler.title?_commitAll now _ _ spared.2.2, Scheduler.title?_commit,
    if_pos ⟨rfl, committed⟩]
  rfl

theorem title?_unanswered (synced : p.Synced) (idle : ¬p.Supplies t (.tick plan now)) :
    (p.tick plan now).title? t = p.title? t := by
  rw [title?_tick synced]
  refine (Scheduler.title?_commitAll now _ _ ?_).trans ((turned_opened plan now p).title t)
  intro committed
  obtain ⟨result, member, same, expected, finished⟩ :=
    Scheduler.expected_of_committed now _ _ committed
  obtain ⟨r, sent, rfl⟩ := List.mem_map.mp member
  exact idle ⟨r, sent, same, expected, finished⟩

/-- An event that finishes a compile or publishes a program gives a new version; any other one leaves
versions alone, except that it may open a record or drop one. -/
theorem title?_step (synced : p.Synced) (exclusive : ∀ t, (p.desk t).Exclusive) (event : Event)
    (t : SourceId) :
    (p.Supplies t event ∧ ∃ v program, p.nextVersion ≤ v ∧
      (p.step event).title? t = some (v, program)) ∨
    (¬p.Supplies t event ∧ ((p.step event).title? t = p.title? t ∨
      (p.title? t = none ∧ (p.step event).title? t = some (0, none)) ∨
      (p.step event).title? t = none)) := by
  have ensured : ∀ source now, (p.scheduler.registry.ensure source now).title? t = p.title? t ∨
      (p.title? t = none ∧ (p.scheduler.registry.ensure source now).title? t = some (0, none)) := by
    intro source now
    rw [Registry.title?_ensure]
    split
    · rename_i fresh
      exact .inr ⟨fresh.2, rfl⟩
    · exact .inl rfl
  cases event with
  | supply source state => exact .inr ⟨id, .inl rfl⟩
  | upload source state now =>
    exact .inr ⟨id, .inl ((turned_invalidate (p.supply source state) source now).title t)⟩
  | ensure source now =>
    obtain same | opened := ensured source now
    · exact .inr ⟨id, .inl same⟩
    · exact .inr ⟨id, .inr (.inl opened)⟩
  | request source now =>
    have requested : (p.step (.request source now)).title? t =
        (p.scheduler.registry.ensure source now).title? t := by
      show (p.scheduler.request source now).registry.title? t = _
      unfold Scheduler.request
      dsimp only
      split
      · exact (Registry.turned_reschedule _ source now).title t
      · rfl
    rw [requested]
    obtain same | opened := ensured source now
    · exact .inr ⟨id, .inl same⟩
    · exact .inr ⟨id, .inr (.inl opened)⟩
  | invalidate source now => exact .inr ⟨id, .inl ((p.turned_invalidate source now).title t)⟩
  | publish source program now =>
    have published : (p.step (.publish source program now)).title? t =
        if t = source then some (p.nextVersion, some program) else p.title? t :=
      p.scheduler.registry.title?_publish source program now t
    by_cases same : t = source
    · rw [if_pos same] at published
      exact .inl ⟨same.symm, _, _, Nat.le_refl _, published⟩
    · rw [if_neg same] at published
      exact .inr ⟨Ne.symm same, .inl published⟩
  | collect inUse =>
    have collected : (p.step (.collect inUse)).title? t = if inUse t then p.title? t else none :=
      p.scheduler.registry.title?_collect inUse t
    refine .inr ⟨id, ?_⟩
    rw [collected]
    split
    · exact .inl rfl
    · exact .inr (.inr rfl)
  | sync now interval =>
    exact .inr ⟨id, .inl ((p.scheduler.registry.turned_sync now interval).title t)⟩
  | work errands => exact .inr ⟨id, .inl rfl⟩
  | tick plan now =>
    by_cases supplies : p.Supplies t (.tick plan now)
    · refine .inl ⟨supplies, ?_⟩
      obtain ⟨r, member, rfl, answers⟩ := supplies
      obtain ⟨before, after, sent⟩ := List.append_of_mem member
      refine ⟨_, _, ?_, title?_answered synced exclusive sent answers⟩
      rw [nextVersion, ← (turned_opened plan now p).next]
      exact Scheduler.next_le_commitAll now _ _
    · exact .inr ⟨supplies, .inl (title?_unanswered synced supplies)⟩

/-- Whether a run has finished a compile of a source that it took over, or published a program for
it, and has kept its record ever since. -/
def Supplied (p : Plant) (events : List Event) (t : SourceId) : Prop :=
  ∃ before event after, events = before ++ event :: after ∧ (p.run before).Supplies t event ∧
    ∀ later, later <+: after → (((p.run before).step event).run later).record? t ≠ none

theorem run_append (p : Plant) (first later : List Event) :
    p.run (first ++ later) = (p.run first).run later :=
  List.foldl_append

/-- One more event. -/
theorem supplied_concat (p : Plant) (events : List Event) (event : Event) (t : SourceId) :
    p.Supplied (events ++ [event]) t ↔
      ((p.run events).Supplies t event ∨ p.Supplied events t) ∧
        ((p.run events).step event).record? t ≠ none := by
  constructor
  · rintro ⟨before, first, after, split, supplies, kept⟩
    rcases List.eq_nil_or_concat after with rfl | ⟨after, last, rfl⟩
    · obtain ⟨rfl, same⟩ := List.append_inj' split rfl
      cases same
      exact ⟨.inl supplies, kept [] (List.prefix_refl _)⟩
    · rw [List.concat_eq_append, ← List.cons_append, ← List.append_assoc] at split
      obtain ⟨rfl, same⟩ := List.append_inj' split rfl
      cases same
      rw [List.concat_eq_append] at kept
      refine ⟨.inr ⟨before, first, after, rfl, supplies, fun later early => ?_⟩, ?_⟩
      · exact kept later (early.trans (List.prefix_append _ _))
      · have last := kept _ (List.prefix_refl _)
        rw [run_append] at last
        rw [run_append]
        exact last
  · rintro ⟨supplies | ⟨before, first, after, rfl, supplies, kept⟩, present⟩
    · refine ⟨events, event, [], rfl, supplies, fun later early => ?_⟩
      rw [List.prefix_nil.mp early]
      exact present
    · refine ⟨before, first, after ++ [event], by simp, supplies, fun later early => ?_⟩
      rcases List.prefix_concat_iff.mp early with whole | early
      · rw [whole, run_append]
        rw [run_append] at present
        exact present
      · exact kept later early

theorem versioned_run (settings : SchedulerSettings) (externals : List Signature)
    (events : List Event) :
    ((new settings externals).run events).scheduler.registry.Versioned :=
  registry_run Registry.Versioned.entry (fun inUse versioned => versioned.collect inUse)
    Registry.Versioned.empty settings externals events

/-- A record has no version exactly as long as no compile of it has finished and nothing was
published for it. -/
theorem version_eq_zero_iff (settings : SchedulerSettings) (externals : List Signature)
    (events : List Event) {t : SourceId} {v : Nat} {program : Option Program}
    (title : ((new settings externals).run events).title? t = some (v, program)) :
    v = 0 ↔ ¬(new settings externals).Supplied events t := by
  induction events using List.reverseRecOn generalizing v program with
  | nil => cases title
  | append_singleton events event ih =>
    let p := (new settings externals).run events
    rw [run_append] at title
    have title : (p.step event).title? t = some (v, program) := title
    have present : (p.step event).record? t ≠ none := by
      intro absent
      rw [title?, Registry.title?_eq_none.mpr absent] at title
      cases title
    rw [supplied_concat, and_iff_left present, not_or]
    rcases title?_step (run_synced settings externals events) (exclusive_run settings externals events)
      event t with ⟨supplies, v', program', fresh, supplied⟩ | ⟨idle, same | ⟨absent, opened⟩ | gone⟩
    · have positive : 0 < p.nextVersion := (versioned_run settings externals events).positive
      have fresh : p.nextVersion ≤ v' := fresh
      rw [supplied] at title
      cases title
      exact ⟨fun zero => by omega, fun never => absurd supplies never.1⟩
    · rw [ih (same.symm.trans title)]
      exact ⟨fun never => ⟨idle, never⟩, fun both => both.2⟩
    · rw [opened] at title
      cases title
      refine ⟨fun _ => ⟨idle, ?_⟩, fun _ => rfl⟩
      -- had it been supplied before, the record would have been kept and would not be new
      rintro ⟨before, first, after, rfl, _, kept⟩
      have last := kept after (List.prefix_refl _)
      apply last
      rw [show (((new settings externals).run before).step first).run after = p from
        (run_append _ before (first :: after)).symm]
      exact Registry.title?_eq_none.mp absent
    · rw [gone] at title
      cases title

theorem distinct_step (distinct : p.scheduler.sources.Nodup) (event : Event) :
    (p.step event).scheduler.sources.Nodup := by
  have invalidated : ∀ (q : Plant) source now,
      (q.invalidate source now).scheduler.sources = q.scheduler.sources := by
    intro q source now
    rw [invalidate_scheduler]
    exact Registry.sources_foldl_reschedule _ _ now
  cases event with
  | supply source state => exact distinct
  | upload source state now =>
    rw [step, invalidated]
    exact distinct
  | ensure source now => exact Registry.nodup_ensure distinct source now
  | request source now =>
    show (p.scheduler.request source now).sources.Nodup
    rw [Scheduler.sources_request]
    exact Registry.nodup_ensure distinct source now
  | invalidate source now =>
    rw [step, invalidated]
    exact distinct
  | publish source program now =>
    show (p.scheduler.registry.publish source program now).sources.Nodup
    rw [Registry.sources_publish]
    exact Registry.nodup_ensure distinct source now
  | collect inUse =>
    show (p.scheduler.registry.collect inUse).sources.Nodup
    rw [Registry.sources_collect]
    exact distinct.filter _
  | sync now interval =>
    show (p.scheduler.registry.sync now interval).2.sources.Nodup
    rw [Registry.sources_sync]
    exact distinct
  | work errands => exact distinct
  | tick plan now =>
    show (p.scheduler.tick (Yard.dispatcher plan) p.yard now).2.1.sources.Nodup
    rw [Scheduler.sources_tick]
    exact distinct

theorem distinct_run (settings : SchedulerSettings) (externals : List Signature)
    (events : List Event) : ((new settings externals).run events).scheduler.sources.Nodup :=
  run_keeps (P := fun p => p.scheduler.sources.Nodup)
    (fun _ event distinct _ => distinct_step distinct event) List.nodup_nil (follows_any _ _)

theorem next_le_step (synced : p.Synced) (event : Event) :
    p.nextVersion ≤ (p.step event).nextVersion := by
  rcases entries_step synced event with entries | ⟨inUse, _, collected⟩
  · exact entries.next_le
  · rw [nextVersion, nextVersion, collected]
    exact Nat.le_refl _

theorem next_le_run (synced : p.Synced) (events : List Event) :
    p.nextVersion ≤ (p.run events).nextVersion := by
  induction events generalizing p with
  | nil => exact Nat.le_refl _
  | cons event rest ih => exact Nat.le_trans (next_le_step synced event) (ih (step_synced event synced))

/-! ### What a record tells -/

theorem title?_of_record? {r : CompilationRecord} (found : p.record? t = some r) :
    p.title? t = some (r.version, r.program) :=
  Option.map_eq_some_iff.mpr ⟨r, found, rfl⟩

theorem record?_of_title? {v : Nat} {program : Option Program}
    (title : p.title? t = some (v, program)) :
    ∃ r, p.record? t = some r ∧ r.version = v ∧ r.program = program := by
  obtain ⟨r, found, same⟩ := Option.map_eq_some_iff.mp title
  obtain ⟨version, held⟩ := Prod.mk.inj same
  exact ⟨r, found, version, held⟩

/-- A record that an event leaves was supplied by it with a new version, or keeps version and
program, or is new. -/
theorem supplied_or_kept (synced : p.Synced) (exclusive : ∀ t, (p.desk t).Exclusive)
    (event : Event) {r' : CompilationRecord} (found' : (p.step event).record? t = some r') :
    (p.Supplies t event ∧ p.nextVersion ≤ r'.version) ∨
    (¬p.Supplies t event ∧
      ((∃ r, p.record? t = some r ∧ r'.version = r.version ∧ r'.program = r.program) ∨
        (p.record? t = none ∧ r'.version = 0 ∧ r'.program = none))) := by
  have after := title?_of_record? found'
  rcases title?_step synced exclusive event t with
    ⟨supplies, v, program, fresh, supplied⟩ | ⟨idle, same | ⟨absent, opened⟩ | gone⟩
  · rw [supplied] at after
    cases after
    exact .inl ⟨supplies, fresh⟩
  · obtain ⟨r, found, version, program⟩ := record?_of_title? (same.symm.trans after)
    exact .inr ⟨idle, .inl ⟨r, found, version.symm, program.symm⟩⟩
  · rw [opened] at after
    obtain ⟨version, program⟩ := Prod.mk.inj (Option.some.inj after)
    exact .inr ⟨idle, .inr ⟨Registry.title?_eq_none.mp absent, version.symm, program.symm⟩⟩
  · rw [gone] at after
    cases after

/-- A result that answers a compile gives its record a version above those of all records, among
them the ones that were taken over before it in the same tick. -/
theorem answered_version_is_newest (synced : p.Synced) (exclusive : ∀ t, (p.desk t).Exclusive)
    (versioned : p.scheduler.registry.Versioned) {plan : Plan} {now : Nat}
    {before after : List Report} {r : Report}
    (sent : (p.opened plan now).yard.sent = before ++ r :: after)
    (answers : (p.opened plan now).Answers r) :
    let s := (Scheduler.commitAll now (before.map Report.result) (p.opened plan now).scheduler).1
    p.nextVersion ≤ s.registry.nextVersion ∧
    (∀ t q, s.registry.find? t = some q → q.version < s.registry.nextVersion) ∧
    ∃ r', (p.step (.tick plan now)).record? r.job.source = some r' ∧
      r'.version = s.registry.nextVersion ∧ r'.program = r.outcome.program? := by
  intro s
  have opened : (p.opened plan now).scheduler.registry.Versioned :=
    (entries_stages (stages_opened p)).keep Registry.Versioned.entry versioned
  have handed : s.registry.Versioned := Scheduler.versioned_commitAll now _ _ opened
  refine ⟨?_, ?_, ?_⟩
  · rw [nextVersion, ← (turned_opened plan now p).next]
    exact Scheduler.next_le_commitAll now _ _
  · intro t q found
    exact handed.below t q.version q.program (Option.map_eq_some_iff.mpr ⟨q, found, rfl⟩)
  · exact record?_of_title? (title?_answered synced exclusive sent answers)

/-- Every version that a record has had so far is below the next one. -/
theorem version_lt_next {settings : SchedulerSettings} {externals : List Signature}
    {earlier events : List Event} (past : earlier <+: events) {r : CompilationRecord}
    (found : ((new settings externals).run earlier).record? t = some r) :
    r.version < ((new settings externals).run events).nextVersion := by
  obtain ⟨later, rfl⟩ := past
  have below := (versioned_run settings externals earlier).below t _ _ (title?_of_record? found)
  have grown := next_le_run (run_synced settings externals earlier) later
  rw [← run_append] at grown
  exact Nat.lt_of_lt_of_le below grown

/-- In every run, what a record tells of its last compile holds together, and a record has a version
from the first compile that finishes on. Versions and programs change only when a compile finishes
or a program is published; the version is then greater than all that any record has had before, and
no two records share one. -/
theorem records_hold_together (settings : SchedulerSettings) (externals : List Signature)
    (events : List Event) :
    let start := new settings externals
    let p := start.run events
    (∀ r ∈ p.scheduler.registry.records, p.record? r.source = some r) ∧
    (∀ t r, p.record? t = some r →
      (r.success = true ↔ r.program.isSome) ∧
      (r.diagnostics ≠ [] → r.status = .done) ∧
      (r.version = 0 ↔ ¬start.Supplied events t) ∧
      (r.status = .done → 0 < r.version) ∧
      (r.runnable?.isSome ↔ r.status = .done ∧ r.success = true)) ∧
    (∀ t t' r r', p.record? t = some r → p.record? t' = some r' → r.version = r'.version →
      r.version ≠ 0 → t = t') ∧
    (∀ event t r', (p.step event).record? t = some r' →
      (p.Supplies t event ∧ p.nextVersion ≤ r'.version) ∨
      (¬p.Supplies t event ∧
        ((∃ r, p.record? t = some r ∧ r'.version = r.version ∧ r'.program = r.program) ∨
          (p.record? t = none ∧ r'.version = 0 ∧ r'.program = none)))) ∧
    (∀ earlier, earlier <+: events → ∀ t r, (start.run earlier).record? t = some r →
      r.version < p.nextVersion) ∧
    ∀ plan now before r after, (p.opened plan now).yard.sent = before ++ r :: after →
      (p.opened plan now).Answers r →
      let s := (Scheduler.commitAll now (before.map Report.result) (p.opened plan now).scheduler).1
      p.nextVersion ≤ s.registry.nextVersion ∧
      (∀ t q, s.registry.find? t = some q → q.version < s.registry.nextVersion) ∧
      ∃ r', (p.step (.tick plan now)).record? r.job.source = some r' ∧
        r'.version = s.registry.nextVersion ∧ r'.program = r.outcome.program? := by
  intro start p
  have synced : p.Synced := run_synced settings externals events
  have exclusive : ∀ t, (p.desk t).Exclusive := exclusive_run settings externals events
  have versioned : p.scheduler.registry.Versioned := versioned_run settings externals events
  have consistent : p.scheduler.registry.Consistent :=
    registry_run Registry.Consistent.entry (fun inUse held => held.collect inUse)
      Registry.Consistent.empty settings externals events
  refine ⟨?_, ?_, ?_, ?_, ?_, ?_⟩
  · intro r member
    exact (Registry.find?_eq_some_iff (distinct_run settings externals events)).mpr ⟨member, rfl⟩
  · intro t r found
    have holds : r.Consistent := consistent.records t r found
    have ended : r.status ≠ .compiled := ended_run settings externals events t r found
    refine ⟨by rw [holds.success], fun some => ?_, ?_, fun done => holds.numbered (.inr done),
      holds.runnable_iff⟩
    · exact (holds.quiet some).resolve_left ended
    · exact version_eq_zero_iff settings externals events (title?_of_record? found)
  · intro t t' r r' found found' same nonzero
    have title := title?_of_record? found
    rw [same] at title nonzero
    exact versioned.distinct t t' _ _ _ title (title?_of_record? found') nonzero
  · exact fun event t r' found' => supplied_or_kept synced exclusive event found'
  · exact fun earlier past t r found => version_lt_next past found
  · exact fun plan now before r after sent answers =>
      answered_version_is_newest synced exclusive versioned sent answers

/-- A compile that finishes within the tick that hands it out. -/
def compiledRun : List Event :=
  [.upload (.ofPath "main.asm") (some (.available "halt\n".toUTF8.toList)) 0,
    .request (.ofPath "main.asm") 0, .tick .inline 0]

theorem compiled_record_was_supplied :
    ∃ r, ((new {} []).run compiledRun).record? (.ofPath "main.asm") = some r ∧ r.version = 1 ∧
      (new {} []).Supplied compiledRun (.ofPath "main.asm") := by
  have versions : (((new {} []).run compiledRun).record? (.ofPath "main.asm")).map (·.version) =
      some 1 := by
    decide +kernel
  obtain ⟨r, found, version⟩ := Option.map_eq_some_iff.mp versions
  refine ⟨r, found, version, ?_⟩
  by_contra never
  have zero := ((records_hold_together {} [] compiledRun).2.1 _ r found).2.2.1.mpr never
  omega

end Plant

end RobotArena
