import Mathlib.Data.Option.Basic
import RobotArena.Proofs.Compilation.Status

/-!
# What a run does to the registry

A registry gets a record, gives a record a new version together with the program of that version, or
turns records without touching either. `Entry` lists these three; the main statement is that every
event changes the registry by entries only, or drops records.
-/

namespace RobotArena

/-- A change of a record that leaves its version and its program alone. -/
inductive CompilationRecord.Turn : CompilationRecord → CompilationRecord → Prop where
  | told {r : CompilationRecord} (now : Nat) : Turn r (r.markSynced now)
  | renumbered {r : CompilationRecord} (generation : Nat) : Turn r { r with generation }
  | scheduled {r : CompilationRecord} (later : Nat) : Turn r (r.schedule later)
  | started {r : CompilationRecord} (waiting : r.status = .scheduled) : Turn r r.start
  | landed {r : CompilationRecord} : Turn r r.landed
  | advanced {r : CompilationRecord} (progress : Progress) : Turn r (r.setProgress progress)
  | finalized {r : CompilationRecord} (compiled : r.status = .compiled) : Turn r (r.setStatus .done)

/-- Turns, one after the other. -/
abbrev CompilationRecord.Turns : CompilationRecord → CompilationRecord → Prop :=
  Relation.ReflTransGen Turn

namespace Registry

open CompilationRecord (Turn Turns)

/-- No record came, went, or got another version or program. -/
structure Turned (g g' : Registry) : Prop where
  next : g'.nextVersion = g.nextVersion
  turns : ∀ t, Option.Rel Turns (g.find? t) (g'.find? t)

/-- A change of a registry that drops no record. -/
inductive Entry (g g' : Registry) : Prop where
  | turned (turned : Turned g g')
  | opened (source : SourceId) (now : Nat) (absent : g.find? source = none)
      (next : g'.nextVersion = g.nextVersion)
      (found : ∀ t, g'.find? t =
        if t = source then some { source, scheduledAt := now } else g.find? t)
  | issued (source : SourceId) (before : CompilationRecord → CompilationRecord)
      (turns : ∀ r, Turns r (before r)) (program : Option Program) (diagnostics : List Diagnostic)
      (status : CompilationStatus) (ended : status = .compiled ∨ status = .done)
      (next : g'.nextVersion = g.nextVersion + 1)
      (found : ∀ t, g'.find? t =
        if t = source then
          (g.find? t).map fun r => (before r).finish g.nextVersion program diagnostics status
        else g.find? t)

/-- Changes of a registry, one after the other. -/
abbrev Entries : Registry → Registry → Prop :=
  Relation.ReflTransGen Entry

theorem Entries.keep {P : Registry → Prop} (entry : ∀ {g g' : Registry}, P g → Entry g g' → P g')
    {g g' : Registry} (entries : Entries g g') (start : P g) : P g' := by
  induction entries with
  | refl => exact start
  | tail _ last ih => exact entry ih last

variable {g g' g'' : Registry} {source : SourceId} {change : CompilationRecord → CompilationRecord}

theorem Turned.refl (g : Registry) : Turned g g := by
  refine ⟨rfl, fun t => ?_⟩
  cases g.find? t with
  | none => exact .none
  | some r => exact .some .refl

theorem Turned.trans (first : Turned g g') (second : Turned g' g'') : Turned g g'' := by
  refine ⟨second.next.trans first.next, fun t => ?_⟩
  have before := first.turns t
  have after := second.turns t
  generalize g.find? t = a at before ⊢
  generalize g'.find? t = b at before after
  generalize g''.find? t = c at after ⊢
  cases before with
  | none => exact after
  | some turns =>
    cases after with
    | some more => exact .some (turns.trans more)

theorem Turned.of_found (next : g'.nextVersion = g.nextVersion)
    (found : ∀ t, g'.find? t = if t = source then (g.find? t).map change else g.find? t)
    (turns : ∀ r, g.find? source = some r → Turns r (change r)) : Turned g g' := by
  refine ⟨next, fun t => ?_⟩
  rw [found]
  split
  · rename_i same
    subst same
    cases record : g.find? t with
    | none => exact .none
    | some r => exact .some (turns r record)
  · exact (Turned.refl g).turns t

theorem turns_reschedule (r : CompilationRecord) (generation now : Nat) :
    Turns r (r.reschedule generation now) :=
  (Relation.ReflTransGen.single (.renumbered generation)).tail (.scheduled now)

theorem turns_postpone (r : CompilationRecord) (later : Nat) : Turns r (r.postpone later) :=
  (Relation.ReflTransGen.single .landed).tail (.scheduled later)

theorem nextVersion_ensure (g : Registry) (source : SourceId) (now : Nat) :
    (g.ensure source now).nextVersion = g.nextVersion := by
  unfold ensure
  split <;> rfl

theorem entries_ensure (g : Registry) (source : SourceId) (now : Nat) :
    Entries g (g.ensure source now) := by
  cases found : g.find? source with
  | none =>
    refine .single (.opened source now found (g.nextVersion_ensure source now) fun t => ?_)
    rw [find?_ensure, found]
    rfl
  | some r =>
    have same : g.ensure source now = g := if_pos (by rw [found]; rfl)
    rw [same]

theorem turned_reschedule (g : Registry) (source : SourceId) (now : Nat) :
    Turned g (g.reschedule source now) :=
  .of_found rfl (fun t => g.find?_reschedule source t now)
    fun r _ => turns_reschedule r g.nextGeneration now

theorem turned_rescheduleAll (sources : List SourceId) (g : Registry) (now : Nat) :
    Turned g (g.rescheduleAll sources now) := by
  induction sources generalizing g with
  | nil => exact .refl g
  | cons source rest ih => exact (g.turned_reschedule source now).trans (ih _)

theorem entries_publish (g : Registry) (source : SourceId) (program : Program) (now : Nat) :
    Entries g (g.publish source program now) := by
  refine (g.entries_ensure source now).tail ?_
  have next : (g.publish source program now).nextVersion = (g.ensure source now).nextVersion + 1 := rfl
  refine .issued source (fun r => { r with generation := (g.ensure source now).nextGeneration })
    (fun r => .single (.renumbered _)) (some program) program.diagnostics .done (.inr rfl) next
    fun t => ?_
  rw [find?_publish, find?_ensure]
  split <;> rfl

theorem turned_sync (g : Registry) (now interval : Nat) : Turned g (g.sync now interval).2 := by
  refine ⟨rfl, fun t => ?_⟩
  rw [find?_sync]
  cases g.find? t with
  | none => exact .none
  | some r =>
    refine .some ?_
    show Turns r (if r.isSyncDue now interval then r.markSynced now else r)
    split
    · exact .single (.told now)
    · exact .refl

end Registry

namespace Scheduler

open CompilationRecord (Turns)

theorem nextVersion_commit (s : Scheduler) (now : Nat) (result : JobResult) :
    (s.commit now result).1.registry.nextVersion =
      if (s.commit now result).2 = .committed then s.registry.nextVersion + 1
      else s.registry.nextVersion := by
  unfold commit
  split
  · rfl
  · dsimp only
    split
    · rfl
    · split <;> rfl

/-- What taking over a result does to a record that it is not committed to. -/
theorem turns_settled {s : Scheduler} {now : Nat} {result : JobResult} {r : CompilationRecord}
    (found : s.registry.find? result.source = some r)
    (discarded : (s.commit now result).2 ≠ .committed) : Turns r (s.settled now result r) := by
  unfold settled
  split
  · exact .single .landed
  · rename_i current
    have expected : s.Expects result := by
      rw [Expects, found]
      exact congrArg some (Decidable.not_not.mp current)
    have unfinished : ¬result.outcome.dependencies?.isSome := fun finished =>
      discarded ((s.committed_iff now result).mpr ⟨expected, finished⟩)
    cases outcome : result.outcome with
    | compiled program dependencies => simp [outcome, JobOutcome.dependencies?] at unfinished
    | failed diagnostics dependencies => simp [outcome, JobOutcome.dependencies?] at unfinished
    | waiting progress =>
      exact ((Relation.ReflTransGen.single .landed).tail (.advanced progress)).tail (.scheduled _)

theorem turned_commit {s : Scheduler} {now : Nat} {result : JobResult}
    (discarded : (s.commit now result).2 ≠ .committed) :
    Registry.Turned s.registry (s.commit now result).1.registry := by
  have next := s.nextVersion_commit now result
  rw [if_neg discarded] at next
  exact .of_found next (s.find?_commit now result) fun r record => turns_settled record discarded

theorem entry_commit (s : Scheduler) (now : Nat) (result : JobResult) :
    Registry.Entry s.registry (s.commit now result).1.registry := by
  by_cases committed : (s.commit now result).2 = .committed
  · obtain ⟨expected, finished⟩ := (s.committed_iff now result).mp committed
    have next := s.nextVersion_commit now result
    rw [if_pos committed] at next
    refine .issued result.source .landed (fun r => .single .landed) result.outcome.program?
      result.outcome.diagnostics .compiled (.inl rfl) next fun t => ?_
    rw [find?_commit]
    split
    · rename_i same
      subst same
      obtain ⟨r, record, generation⟩ := Option.map_eq_some_iff.mp expected
      rw [record, Option.map_some, Option.map_some, s.settled_finished now generation finished]
    · rfl
  · exact .turned (turned_commit committed)

theorem turned_finalize (s : Scheduler) (count : Nat) (source : SourceId) :
    Registry.Turned s.registry (finalize (s, count) source).1.registry := by
  have next : (finalize (s, count) source).1.registry.nextVersion = s.registry.nextVersion := by
    cases found : s.registry.find? source with
    | none => simp only [finalize, found]
    | some r =>
      simp only [finalize, found]
      split <;> rfl
  refine .of_found next (s.find?_finalize count source) fun r _ => ?_
  split
  · rename_i compiled
    exact .single (.finalized compiled)
  · exact .refl

theorem turned_finalizeAll (sources : List SourceId) (s : Scheduler) :
    Registry.Turned s.registry (finalizeAll sources s).registry := by
  induction sources generalizing s with
  | nil => exact .refl _
  | cons source rest ih =>
    rw [finalizeAll_cons]
    exact (s.turned_finalize 0 source).trans (ih _)

end Scheduler

namespace Plant

open Registry (Entries Entry Turned)

variable {plan : Plan} {now : Nat} {p q : Plant}

theorem turned_offer (plan : Plan) (now : Nat) (p : Plant) (source : SourceId) :
    Turned p.scheduler.registry (p.offer plan now source).scheduler.registry := by
  rcases p.offer_cases plan now source with same | ⟨r, found, due, called⟩
  · rw [same]
    exact .refl _
  · have started : Turned p.scheduler.registry (p.scheduler.modify source (·.start)).registry := by
      have change := fun t => p.scheduler.find?_modify source t (·.start) fun r => by
        rw [CompilationRecord.start_eq]
      refine .of_found rfl change fun r' found' => ?_
      cases Option.some.inj (found.symm.trans found')
      exact .single (.started ((r.isDue_iff now).mp due).1)
    rcases called with refused | ⟨errands, accepted⟩
    · rw [refused]
      have change := fun t => (p.scheduler.modify source (·.start)).find?_modify source t
        (·.postpone (now + p.scheduler.backoff)) fun r => by rw [CompilationRecord.postpone_eq]
      exact started.trans (.of_found rfl change fun r _ => Registry.turns_postpone r _)
    · rw [accepted]
      exact started

theorem turned_opened (plan : Plan) (now : Nat) (p : Plant) :
    Turned p.scheduler.registry (p.opened plan now).scheduler.registry := by
  have offered : ∀ (sources : List SourceId) (q : Plant), Turned q.scheduler.registry
      (sources.foldl (Plant.offer plan now) q).scheduler.registry := by
    intro sources
    induction sources with
    | nil => exact fun q => .refl _
    | cons source rest ih => exact fun q => (q.turned_offer plan now source).trans (ih _)
  have handed := offered p.scheduler.demanded p
  rw [← handOut_eq_foldl] at handed
  exact handed

theorem entries_stage (stage : Stage plan now p q) :
    Entries p.scheduler.registry q.scheduler.registry := by
  cases stage with
  | offer source => exact .single (.turned (p.turned_offer plan now source))
  | rearrange inbox demanded => exact .refl
  | takeOver =>
    cases sent : p.yard.sent with
    | nil => rw [takeOver_nil sent]
    | cons r rest =>
      rw [takeOver_cons sent]
      exact .single (p.scheduler.entry_commit now r.result)
  | finalize source => exact .single (.turned (p.scheduler.turned_finalize 0 source))

theorem entries_stages (stages : Stages plan now p q) :
    Entries p.scheduler.registry q.scheduler.registry := by
  induction stages with
  | refl => exact .refl
  | tail _ last ih => exact ih.trans (entries_stage last)

theorem turned_invalidate (p : Plant) (source : SourceId) (now : Nat) :
    Turned p.scheduler.registry (p.invalidate source now).scheduler.registry := by
  rw [invalidate_scheduler]
  exact Registry.turned_rescheduleAll _ _ now

/-- An event changes the registry by entries, unless it drops records. -/
theorem entries_step (synced : p.Synced) (event : Event) :
    Entries p.scheduler.registry (p.step event).scheduler.registry ∨
      ∃ inUse, event = .collect inUse ∧
        (p.step event).scheduler.registry = p.scheduler.registry.collect inUse := by
  cases event with
  | supply source state => exact .inl .refl
  | upload source state now =>
    exact .inl (.single (.turned ((p.supply source state).turned_invalidate source now)))
  | ensure source now => exact .inl (p.scheduler.registry.entries_ensure source now)
  | request source now =>
    left
    have ensured := p.scheduler.registry.entries_ensure source now
    show Entries _ (p.scheduler.request source now).registry
    unfold Scheduler.request
    dsimp only
    split
    · exact ensured.tail (.turned (Registry.turned_reschedule _ source now))
    · exact ensured
  | invalidate source now => exact .inl (.single (.turned (p.turned_invalidate source now)))
  | publish source program now =>
    exact .inl (p.scheduler.registry.entries_publish source program now)
  | collect inUse => exact .inr ⟨inUse, rfl, rfl⟩
  | sync now interval =>
    exact .inl (.single (.turned (p.scheduler.registry.turned_sync now interval)))
  | work errands => exact .inl .refl
  | tick plan now => exact .inl (entries_stages (stages_tick synced))

/-- What every entry keeps of the empty registry, and dropping records too, holds in every run. -/
theorem registry_run {P : Registry → Prop} (entry : ∀ {g g' : Registry}, P g → Entry g g' → P g')
    (collect : ∀ {g : Registry} (inUse : SourceId → Bool), P g → P (g.collect inUse)) (empty : P {})
    (settings : SchedulerSettings) (externals : List Signature) (events : List Event) :
    P ((new settings externals).run events).scheduler.registry := by
  have kept : ∀ (p : Plant) (event : Event), p.Synced ∧ P p.scheduler.registry → True →
      (p.step event).Synced ∧ P (p.step event).scheduler.registry := by
    intro p event ⟨synced, start⟩ _
    refine ⟨step_synced event synced, ?_⟩
    rcases entries_step synced event with entries | ⟨inUse, _, collected⟩
    · exact entries.keep entry start
    · rw [collected]
      exact collect inUse start
  have start : (new settings externals).Synced ∧ P (new settings externals).scheduler.registry :=
    ⟨rfl, empty⟩
  exact (run_keeps (P := fun p => p.Synced ∧ P p.scheduler.registry) kept start
    (follows_any _ events)).2

end Plant

end RobotArena
