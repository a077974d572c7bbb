import RobotArena.Proofs.Compilation.Completion
import RobotArena.Proofs.Compilation.Dependents
import RobotArena.Proofs.Compilation.Roster

/-!
# The life of a status

Two jobs for one source never carry the same generation, and a job carries the generation of its
source's record only while the record is compiling. So a result that is taken over finds its record
compiling, a tick moves statuses forward step by step, and no compile is taken over twice.
-/

namespace RobotArena

/-- What one stage of a tick does to a status, if it changes it. -/
inductive CompilationStatus.Move : CompilationStatus → CompilationStatus → Prop where
  | start : Move .scheduled .compiling
  | delay : Move .compiling .scheduled
  | finish : Move .compiling .compiled
  | finalize : Move .compiled .done

/-- Where a status can be after a tick; no status is `compiled` between ticks. -/
def CompilationStatus.afterTick : CompilationStatus → List CompilationStatus
  | none => [none]
  | scheduled => [scheduled, compiling, done]
  | compiling => [compiling, scheduled, done]
  | compiled => []
  | done => [done]

/-- Moves, one after the other. -/
abbrev CompilationStatus.Moves : CompilationStatus → CompilationStatus → Prop :=
  Relation.ReflTransGen Move

theorem CompilationStatus.mem_afterTick {a b : CompilationStatus} (moves : Moves a b)
    (first : a ≠ .compiled) (last : b ≠ .compiled) : b ∈ a.afterTick := by
  have reached : b ∈ a.afterTick ∨ (b = .compiled ∧ (a = .scheduled ∨ a = .compiling)) := by
    clear last
    induction moves with
    | refl => cases a <;> simp_all [afterTick]
    | tail _ move ih => cases move <;> cases a <;> simp_all [afterTick]
  rcases reached with member | ⟨ended, _⟩
  · exact member
  · exact absurd ended last

/-- No two jobs carry one generation, and a record is compiling while a job with its generation is
out. -/
structure Desk.Exclusive (d : Desk) : Prop where
  numbered : d.Numbered
  distinct : (d.tickets.map (·.job.generation)).Nodup
  awaited : ∀ r, d.record = some r → ∀ t ∈ d.tickets, t.job.generation = r.generation →
    r.status = .compiling

namespace Desk.Exclusive

variable {n n' : Nat} {record : Option CompilationRecord} {r r' : CompilationRecord} {t : Ticket}
  {out out' : List Ticket}

theorem empty : Exclusive ⟨1, none, []⟩ :=
  ⟨Numbered.empty, List.nodup_nil, by simp⟩

theorem generations_changed (change : Fate → Fate) (out : List Ticket) :
    (out.map (Ticket.change change)).map (·.job.generation) = out.map (·.job.generation) := by
  rw [List.map_map]
  rfl

/-- A record with a generation that was never handed out has no job of its own out. -/
theorem of_fresh (h : Exclusive ⟨n, record, out⟩) (numbered : Numbered ⟨n', some r', out'⟩)
    (fresh : r'.generation = n)
    (same : out'.map (·.job.generation) = out.map (·.job.generation)) :
    Exclusive ⟨n', some r', out'⟩ := by
  refine ⟨numbered, ?_, ?_⟩
  · show (out'.map (·.job.generation)).Nodup
    rw [same]
    exact h.distinct
  · rintro _ ⟨⟩ t member equal
    have listed : t.job.generation ∈ out.map (·.job.generation) := by
      rw [← same]
      exact List.mem_map_of_mem member
    obtain ⟨s, before, generation⟩ := List.mem_map.mp listed
    have below : s.job.generation < n := (h.numbered.given s before).2
    omega

/-- The job whose result is taken over goes, and no other one carries its generation. -/
theorem of_taken (h : Exclusive ⟨n, some r, t :: out⟩)
    (numbered : Numbered ⟨n, some r', out.map (.change .overtake)⟩)
    (same : r'.generation = r.generation)
    (kept : r.generation ≠ t.job.generation → r'.status = r.status) :
    Exclusive ⟨n, some r', out.map (.change .overtake)⟩ := by
  obtain ⟨alone, distinct⟩ := List.nodup_cons.mp h.distinct
  refine ⟨numbered, ?_, ?_⟩
  · show ((out.map (Ticket.change .overtake)).map (·.job.generation)).Nodup
    rw [generations_changed]
    exact distinct
  · rintro _ ⟨⟩ s' member equal
    obtain ⟨s, before, rfl⟩ := List.mem_map.mp member
    have own : s.job.generation = r.generation := Eq.trans equal same
    have other : r.generation ≠ t.job.generation := by
      intro taken
      apply alone
      exact List.mem_map.mpr ⟨s, before, own.trans taken⟩
    rw [kept other]
    exact h.awaited r rfl s (List.mem_cons_of_mem _ before) own

theorem effect {d d' : Desk} (h : d.Exclusive) (effect : Effect d d') : d'.Exclusive := by
  have numbered : d'.Numbered := h.numbered.effect effect
  cases effect with
  | quiet later same =>
    refine ⟨numbered, (same.map _).nodup_iff.mp h.distinct, ?_⟩
    intro r found t member
    exact h.awaited r found t (same.mem_iff.mpr member)
  | @told n r out now =>
    refine ⟨numbered, h.distinct, ?_⟩
    rintro _ ⟨⟩ t member equal
    exact h.awaited r rfl t member equal
  | created source now =>
    refine ⟨numbered, h.distinct, ?_⟩
    rintro _ ⟨⟩ t member equal
    -- a new record has the generation zero, which is never handed out
    have positive := (h.numbered.given t member).1
    have zero : t.job.generation = 0 := equal
    omega
  | rescheduled now marks =>
    refine h.of_fresh numbered (by rw [CompilationRecord.reschedule_eq]) ?_
    rcases marks with rfl | rfl
    · rfl
    · exact generations_changed _ _
  | published version program =>
    exact h.of_fresh numbered (by rw [CompilationRecord.finish_eq]) (generations_changed _ _)
  | @accepted n r out now source due =>
    have scheduled : r.status = .scheduled := ((r.isDue_iff now).mp due).1
    have unused : r.generation ∉ out.map (·.job.generation) := by
      intro member
      obtain ⟨t, before, equal⟩ := List.mem_map.mp member
      have compiling := h.awaited r rfl t before equal
      rw [scheduled] at compiling
      cases compiling
    refine ⟨numbered, List.nodup_cons.mpr ⟨unused, h.distinct⟩, ?_⟩
    rintro _ ⟨⟩ t _ _
    rw [CompilationRecord.start_eq]
  | @refused n r out now later due =>
    have scheduled : r.status = .scheduled := ((r.isDue_iff now).mp due).1
    refine ⟨numbered, h.distinct, ?_⟩
    rintro _ ⟨⟩ t member equal
    rw [CompilationRecord.postpone_eq, CompilationRecord.start_eq] at equal
    have compiling := h.awaited r rfl t member equal
    rw [scheduled] at compiling
    cases compiling
  | @dropped n t out =>
    refine ⟨numbered, ?_, by simp⟩
    show ((out.map (Ticket.change .overtake)).map (·.job.generation)).Nodup
    rw [generations_changed]
    exact (List.nodup_cons.mp h.distinct).2
  | discarded stale => exact h.of_taken numbered rfl fun _ => rfl
  | committed current version program diagnostics =>
    exact h.of_taken numbered (by rw [CompilationRecord.finish_eq]) fun stale => absurd current stale
  | delayed current progress later =>
    refine h.of_taken numbered ?_ fun stale => absurd current stale
    rw [CompilationRecord.schedule_eq, CompilationRecord.setProgress_eq]
  | @finalized n r out compiled =>
    refine ⟨numbered, h.distinct, ?_⟩
    rintro _ ⟨⟩ t member equal
    rw [CompilationRecord.setStatus_eq] at equal
    have compiling := h.awaited r rfl t member equal
    rw [compiled] at compiling
    cases compiling

theorem drop {d : Desk} (h : d.Exclusive) : d.drop.Exclusive := by
  refine ⟨h.numbered.drop, ?_, by simp [Desk.drop]⟩
  show ((d.tickets.map (Ticket.change .orphan)).map (·.job.generation)).Nodup
  rw [generations_changed]
  exact h.distinct

end Desk.Exclusive

/-! ### Effects that hand out no generation move statuses step by step -/

theorem Effect.next_le {d d' : Desk} (effect : Effect d d') : d.next ≤ d'.next := by
  cases effect with
  | quiet later _ => exact later
  | rescheduled now marks => exact Nat.le_succ _
  | published version program => exact Nat.le_succ _
  | _ => exact Nat.le_refl _

theorem Effects.next_le {d d' : Desk} (effects : Effects d d') : d.next ≤ d'.next := by
  induction effects with
  | refl => exact Nat.le_refl _
  | tail _ last ih => exact Nat.le_trans ih last.next_le

theorem Effect.moves {d d' : Desk} {r : CompilationRecord} (exclusive : d.Exclusive)
    (effect : Effect d d') (same : d'.next = d.next) (found : d.record = some r) :
    ∃ r', d'.record = some r' ∧ CompilationStatus.Moves r.status r'.status := by
  cases effect with
  | quiet later _ => exact ⟨r, found, .refl⟩
  | told now =>
    cases found
    exact ⟨_, rfl, .refl⟩
  | created source now => cases found
  | rescheduled now marks => exact absurd same (Nat.succ_ne_self _)
  | published version program => exact absurd same (Nat.succ_ne_self _)
  | @accepted n r out now source due =>
    cases found
    refine ⟨_, rfl, ?_⟩
    rw [CompilationRecord.start_eq, ((r.isDue_iff now).mp due).1]
    exact .single .start
  | @refused n r out now later due =>
    cases found
    refine ⟨_, rfl, ?_⟩
    rw [CompilationRecord.postpone_eq, ((r.isDue_iff now).mp due).1]
  | dropped => cases found
  | discarded stale =>
    cases found
    exact ⟨_, rfl, .refl⟩
  | committed current version program diagnostics =>
    cases found
    refine ⟨_, rfl, ?_⟩
    rw [CompilationRecord.finish_eq, exclusive.awaited r rfl _ List.mem_cons_self current.symm]
    exact .single .finish
  | delayed current progress later =>
    cases found
    refine ⟨_, rfl, ?_⟩
    rw [CompilationRecord.schedule_eq,
      exclusive.awaited r rfl _ List.mem_cons_self current.symm]
    exact .single .delay
  | finalized compiled =>
    cases found
    refine ⟨_, rfl, ?_⟩
    rw [CompilationRecord.setStatus_eq, compiled]
    exact .single .finalize

theorem Effects.moves {d d' : Desk} {r : CompilationRecord} (exclusive : d.Exclusive)
    (effects : Effects d d') (same : d'.next = d.next) (found : d.record = some r) :
    ∃ r', d'.record = some r' ∧ CompilationStatus.Moves r.status r'.status := by
  induction effects with
  | refl => exact ⟨r, found, .refl⟩
  | tail before last ih =>
    -- the number of generations handed out never falls, so none was handed out in between
    have first := Effects.next_le before
    have second := last.next_le
    obtain ⟨middle, was, moves⟩ := ih (by omega)
    have kept := Effects.keep Desk.Exclusive.effect before exclusive
    obtain ⟨after, now, more⟩ := last.moves kept (by omega) was
    exact ⟨after, now, moves.trans more⟩

/-! ### A tick takes over no compile twice -/

/-- The program that a finished compile produced. -/
def JobOutcome.program? : JobOutcome → Option Program
  | .compiled program _ => some program
  | _ => none

/-- The diagnostics of a finished compile. -/
def JobOutcome.diagnostics : JobOutcome → List Diagnostic
  | .compiled program _ => program.diagnostics
  | .failed diagnostics _ => diagnostics
  | .waiting _ => []

/-- Results of which no two answer the same request for one source. -/
def JobResult.Distinct (results : List JobResult) : Prop :=
  results.Pairwise fun a b => a.source = b.source → a.generation ≠ b.generation

namespace Scheduler

variable {s : Scheduler} {now : Nat} {result : JobResult} {rest : List JobResult}

/-- What a finished compile that answers the latest request makes of its record. -/
theorem settled_finished (s : Scheduler) (now : Nat) {r : CompilationRecord}
    (current : r.generation = result.generation) (finished : result.outcome.dependencies?.isSome) :
    s.settled now result r =
      r.landed.finish s.registry.nextVersion result.outcome.program? result.outcome.diagnostics
        .compiled := by
  have current : ¬r.generation ≠ result.generation := Decidable.not_not.mpr current
  rw [settled, if_neg current]
  cases outcome : result.outcome with
  | compiled program dependencies => rfl
  | failed diagnostics dependencies => rfl
  | waiting progress =>
    rw [outcome] at finished
    cases finished

theorem compiled_of_committed (committed : (s.commit now result).2 = .committed) :
    ∃ r, (s.commit now result).1.registry.find? result.source = some r ∧ r.status = .compiled := by
  obtain ⟨expected, finished⟩ := (s.committed_iff now result).mp committed
  obtain ⟨before, found, generation⟩ := Option.map_eq_some_iff.mp expected
  have ended := s.settled_finished now generation finished
  have record := s.find?_commit now result result.source
  rw [if_pos rfl, found, Option.map_some] at record
  refine ⟨_, record, ?_⟩
  rw [ended, CompilationRecord.finish_eq]

/-- After a result that answers the latest request for its source, none of the others does. -/
theorem unexpected_rest (distinct : JobResult.Distinct (result :: rest)) (expected : s.Expects result) :
    ∀ other ∈ rest, other.source = result.source → ¬(s.commit now result).1.Expects other := by
  intro other member same again
  rw [Expects, generation_commit, same] at again
  have equal : some result.generation = some other.generation := Eq.trans (Eq.symm expected) again
  exact (List.pairwise_cons.mp distinct).1 other member same.symm (Option.some.inj equal)

/-- The sources whose results are committed differ, and their compiles wait to be ended. -/
theorem committed_commitAll (now : Nat) (results : List JobResult) (s : Scheduler)
    (distinct : JobResult.Distinct results) :
    (commitAll now results s).2.1.Nodup ∧
      ∀ t ∈ (commitAll now results s).2.1,
        ∃ r, (commitAll now results s).1.registry.find? t = some r ∧ r.status = .compiled := by
  induction results generalizing s with
  | nil => exact ⟨List.nodup_nil, by simp [commitAll]⟩
  | cons result rest ih =>
    have later := ih (s.commit now result).1 (List.pairwise_cons.mp distinct).2
    cases what : (s.commit now result).2 with
    | discarded =>
      have same : (commitAll now (result :: rest) s).2.1 =
          (commitAll now rest (s.commit now result).1).2.1 := by
        simp only [commitAll, what]
      rw [same, commitAll_cons]
      exact later
    | committed =>
      have more : (commitAll now (result :: rest) s).2.1 =
          result.source :: (commitAll now rest (s.commit now result).1).2.1 := by
        simp only [commitAll, what]
      have expected := ((s.committed_iff now result).mp what).1
      obtain ⟨record, -, spared⟩ := commitAll_unexpected now rest _ (unexpected_rest distinct expected)
      obtain ⟨r, found, compiled⟩ := compiled_of_committed what
      rw [more, commitAll_cons]
      refine ⟨List.nodup_cons.mpr ⟨spared, later.1⟩, fun t member => ?_⟩
      rcases List.mem_cons.mp member with rfl | other
      · -- later results may clear its note of a job, but leave its status alone
        rw [found, Option.map_some] at record
        obtain ⟨r', found', landed⟩ := Option.map_eq_some_iff.mp record
        have status : r'.status = r.status := congrArg (·.status) landed
        exact ⟨r', found', status.trans compiled⟩
      · exact later.2 t other

/-- Every compile that waits to be ended is ended. -/
theorem count_finalize (sources : List SourceId) (s : Scheduler) (count : Nat)
    (distinct : sources.Nodup)
    (compiled : ∀ t ∈ sources, ∃ r, s.registry.find? t = some r ∧ r.status = .compiled) :
    (sources.foldl finalize (s, count)).2 = count + sources.length := by
  induction sources generalizing s count with
  | nil => rfl
  | cons source rest ih =>
    obtain ⟨alone, distinct⟩ := List.nodup_cons.mp distinct
    obtain ⟨r, found, ended⟩ := compiled source List.mem_cons_self
    have first : finalize (s, count) source = (s.modify source (·.setStatus .done), count + 1) := by
      simp only [finalize, found, ended, if_true]
    have remain : ∀ t ∈ rest, ∃ r,
        (s.modify source (·.setStatus .done)).registry.find? t = some r ∧ r.status = .compiled := by
      intro t member
      have other : t ≠ source := fun same => alone (same ▸ member)
      have kept := s.find?_modify source t (·.setStatus .done) fun r => by
        rw [CompilationRecord.setStatus_eq]
      rw [kept, if_neg other]
      exact compiled t (List.mem_cons_of_mem _ member)
    rw [List.foldl_cons, first, ih _ _ distinct remain, List.length_cons]
    omega

end Scheduler

namespace Plant

variable {p : Plant} {plan : Plan} {now : Nat}

theorem exclusive_run (settings : SchedulerSettings) (externals : List Signature)
    (events : List Event) (t : SourceId) :
    (((new settings externals).run events).desk t).Exclusive :=
  desk_run Desk.Exclusive.effect Desk.Exclusive.drop Desk.Exclusive.empty settings externals events t

theorem ended_run (settings : SchedulerSettings) (externals : List Signature) (events : List Event) :
    ((new settings externals).run events).Ended := by
  have start : (new settings externals).Synced ∧ (new settings externals).Ended :=
    ⟨rfl, fun _ _ found => by cases found⟩
  exact (run_keeps (P := fun p => p.Synced ∧ p.Ended)
    (fun _ event kept _ => ⟨step_synced event kept.1, ended_step kept.1 kept.2 event⟩) start
    (follows_any _ events)).2

theorem distinct_sent (exclusive : ∀ t, (p.desk t).Exclusive) :
    JobResult.Distinct (p.yard.sent.map Report.result) := by
  have outstanding : p.yard.outstanding.Pairwise fun a b =>
      a.job.source = b.job.source → a.job.generation ≠ b.job.generation := by
    refine List.pairwise_iff_forall_sublist.mpr fun {a b} pair same => ?_
    have filtered := pair.filter (·.job.source = b.job.source)
    rw [List.filter_cons_of_pos (by simpa using same), List.filter_cons_of_pos (by simp)] at filtered
    have distinct := List.pairwise_map.mp (exclusive b.job.source).distinct
    exact List.pairwise_iff_forall_sublist.mp distinct (filtered.trans (by simp [desk, Yard.tickets]))
  have sublist : (p.yard.sent.map (·.toTicket)).Sublist p.yard.outstanding :=
    List.sublist_append_right _ _
  have tickets := outstanding.sublist sublist
  rw [List.pairwise_map] at tickets
  exact List.pairwise_map.mpr tickets

/-- Every compile that a tick takes over is ended by it. -/
theorem finalized_tick (synced : p.Synced) (exclusive : ∀ t, (p.desk t).Exclusive) :
    (p.scheduler.tick (Yard.dispatcher plan) p.yard now).1.finalized =
      (p.scheduler.tick (Yard.dispatcher plan) p.yard now).1.committed := by
  have opened : ∀ t, ((p.opened plan now).desk t).Exclusive := fun t =>
    (effects_stages t (stages_opened p)).keep Desk.Exclusive.effect (exclusive t)
  have inbox : (p.handOut plan now).scheduler.inbox =
      (p.opened plan now).yard.sent.map Report.result := handOut_synced plan now synced
  have distinct : JobResult.Distinct (p.handOut plan now).scheduler.inbox := by
    rw [inbox]
    exact distinct_sent opened
  obtain ⟨alone, compiled⟩ :=
    Scheduler.committed_commitAll now _ (p.opened plan now).scheduler distinct
  have count := Scheduler.count_finalize _ _ 0 alone compiled
  rw [Nat.zero_add] at count
  exact count

/-! ### What events do to statuses -/

/-- Where the compile of a source stands, if it has a record. -/
def status? (p : Plant) (t : SourceId) : Option CompilationStatus :=
  (p.record? t).map (·.status)

/-- An upload of a source concerns the source and all sources whose last compile read it, directly or
through others. -/
def Concerns (p : Plant) (source t : SourceId) : Prop :=
  t = source ∨ Relation.TransGen p.scheduler.graph.Reads t source

theorem mem_concerned_iff {p : Plant} {source t : SourceId} :
    t ∈ p.concerned source ↔ p.Concerns source t ∧ (p.record? t).isSome := by
  rw [mem_concerned, DependencyGraph.mem_dependents_iff, Concerns]
  by_cases same : t = source
  · simp [same]
  · simp [same]

theorem nodup_concerned (p : Plant) (source : SourceId) : (p.concerned source).Nodup := by
  refine List.Nodup.filter _ (List.nodup_cons.mpr ⟨fun member => ?_, p.scheduler.graph.nodup_dependents _⟩)
  exact (DependencyGraph.mem_dependents_iff.mp member).1 rfl

/-- An upload reschedules each record that it concerns with a generation of its own. -/
theorem record?_invalidate (p : Plant) (source : SourceId) (now : Nat) (t : SourceId) :
    (p.invalidate source now).record? t =
      if t ∈ p.concerned source then
        (p.record? t).map (·.reschedule
          (p.scheduler.registry.nextGeneration + (p.concerned source).idxOf t) now)
      else p.record? t := by
  rw [record?, invalidate_scheduler]
  exact p.scheduler.registry.find?_rescheduleAll (p.nodup_concerned source) now t

theorem record?_invalidate_other {p : Plant} {source t : SourceId} (now : Nat)
    (spared : ¬p.Concerns source t) : (p.invalidate source now).record? t = p.record? t := by
  rw [record?_invalidate, if_neg fun member => spared (mem_concerned_iff.mp member).1]

theorem status?_invalidate (p : Plant) (source : SourceId) (now : Nat) (t : SourceId) :
    (p.Concerns source t →
      (p.invalidate source now).status? t = (p.status? t).map fun _ => .scheduled) ∧
    (¬p.Concerns source t → (p.invalidate source now).status? t = p.status? t) := by
  refine ⟨fun concerns => ?_, fun spared => ?_⟩
  · have rescheduled (generation : Nat) (r : CompilationRecord) :
        (r.reschedule generation now).status = .scheduled := by
      rw [CompilationRecord.reschedule_eq]
    rw [status?, status?, record?_invalidate]
    cases found : p.record? t with
    | none => simp
    | some r =>
      have member : t ∈ p.concerned source := mem_concerned_iff.mpr ⟨concerns, by simp [found]⟩
      simp [member, rescheduled]
  · exact congrArg (Option.map _) (record?_invalidate_other now spared)

theorem status?_request (p : Plant) (source : SourceId) (now : Nat) (t : SourceId) :
    (p.step (.request source now)).status? t =
      if t = source ∧ (p.status? t = none ∨ p.status? t = some .none) then some .scheduled
      else p.status? t := by
  let ensured := p.scheduler.registry.ensure source now
  have found := p.scheduler.registry.find?_ensure source t now
  have before : ensured.find? source =
      some ((p.record? source).getD { source, scheduledAt := now }) := by
    rw [p.scheduler.registry.find?_ensure, if_pos rfl]
    rfl
  have after : (p.step (.request source now)).status? t =
      if ((p.record? source).getD { source, scheduledAt := now }).status = .none then
        ((ensured.reschedule source now).find? t).map (·.status)
      else (ensured.find? t).map (·.status) := by
    change ((p.scheduler.request source now).registry.find? t).map (·.status) = _
    unfold Scheduler.request
    dsimp only
    rw [before, Option.any_some]
    split <;> simp_all [ensured]
  have rescheduled : ∀ r : CompilationRecord,
      (r.reschedule ensured.nextGeneration now).status = .scheduled := by
    intro r
    rw [CompilationRecord.reschedule_eq]
  rw [after, Registry.find?_reschedule]
  by_cases same : t = source
  · subst same
    rw [if_pos rfl, before]
    unfold status?
    cases known : p.record? t with
    | none => simp [rescheduled]
    | some r =>
      by_cases idle : r.status = .none
      · simp [idle, rescheduled]
      · simp [idle]
  · rw [if_neg same] at found ⊢
    rw [if_neg (not_and.mpr fun equal => absurd equal same), ite_self, found]
    rfl

/-- No stage of a tick hands out a generation. -/
theorem nextGeneration_stage {p q : Plant} (stage : Stage plan now p q) :
    q.scheduler.registry.nextGeneration = p.scheduler.registry.nextGeneration := by
  cases stage with
  | offer source =>
    rcases p.offer_cases plan now source with same | ⟨_, _, _, refused | ⟨errands, accepted⟩⟩
    · rw [same]
    · rw [refused]
      rfl
    · rw [accepted]
      rfl
  | rearrange inbox demanded => rfl
  | takeOver =>
    cases sent : p.yard.sent with
    | nil => rw [takeOver_nil sent]
    | cons r rest =>
      rw [takeOver_cons sent]
      exact p.scheduler.nextGeneration_commit now r.result
  | finalize source =>
    show (Scheduler.finalize (p.scheduler, 0) source).1.registry.nextGeneration = _
    cases found : p.scheduler.registry.find? source with
    | none => simp only [Scheduler.finalize, found]
    | some r =>
      simp only [Scheduler.finalize, found]
      split <;> rfl

theorem nextGeneration_stages {p q : Plant} (stages : Stages plan now p q) :
    q.scheduler.registry.nextGeneration = p.scheduler.registry.nextGeneration := by
  induction stages with
  | refl => rfl
  | tail _ last ih => exact (nextGeneration_stage last).trans ih

theorem status?_tick {t : SourceId} {status : CompilationStatus} (synced : p.Synced) (ended : p.Ended)
    (exclusive : (p.desk t).Exclusive) (before : p.status? t = some status) :
    ∃ after ∈ status.afterTick, (p.tick plan now).status? t = some after := by
  obtain ⟨r, found, rfl⟩ := Option.map_eq_some_iff.mp before
  have stages : Stages plan now p (p.tick plan now) := stages_tick synced
  obtain ⟨r', found', moves⟩ :=
    (effects_stages t stages).moves exclusive (nextGeneration_stages stages) found
  have first : r.status ≠ .compiled := ended t r found
  have last : r'.status ≠ .compiled := ended_tick synced ended t r' found'
  exact ⟨r'.status, CompilationStatus.mem_afterTick moves first last,
    Option.map_eq_some_iff.mpr ⟨r', found', rfl⟩⟩

theorem status?_eq_none {t : SourceId} : p.status? t = none ↔ t ∉ p.scheduler.sources := by
  rw [Registry.not_mem_sources, status?, Option.map_eq_none_iff]
  rfl

/-- A source whose compile is done stays done, unless its record is dropped or an upload concerns
it. -/
theorem done_step {t : SourceId} (synced : p.Synced) (ended : p.Ended)
    (exclusive : (p.desk t).Exclusive) (event : Event) (done : p.status? t = some .done) :
    (p.step event).status? t = some .done ∨
      (∃ inUse, event = .collect inUse ∧ inUse t = false ∧ (p.step event).record? t = none) ∨
      ∃ source now, p.Concerns source t ∧
        (event = .invalidate source now ∨ ∃ state, event = .upload source state now) := by
  cases event with
  | supply source state => exact .inl done
  | upload source state now =>
    by_cases concerns : p.Concerns source t
    · exact .inr (.inr ⟨source, now, concerns, .inr ⟨state, rfl⟩⟩)
    · exact .inl (((status?_invalidate (p.supply source state) source now t).2 concerns).trans done)
  | ensure source now =>
    obtain ⟨r, found, status⟩ := Option.map_eq_some_iff.mp done
    have kept := Registry.find?_ensure_found found source now
    exact .inl (Option.map_eq_some_iff.mpr ⟨r, kept, status⟩)
  | request source now =>
    left
    rw [status?_request, done, if_neg (by simp)]
  | invalidate source now =>
    by_cases concerns : p.Concerns source t
    · exact .inr (.inr ⟨source, now, concerns, .inl rfl⟩)
    · exact .inl (((status?_invalidate p source now t).2 concerns).trans done)
  | publish source program now =>
    left
    show ((p.scheduler.registry.publish source program now).find? t).map (·.status) = some .done
    rw [Registry.find?_publish]
    split
    · rename_i same
      subst same
      rw [Registry.find?_ensure, if_pos rfl, Option.map_some, Option.map_some,
        CompilationRecord.finish_eq]
    · exact done
  | collect inUse =>
    have record : (p.collect inUse).record? t = if inUse t then p.record? t else none :=
      p.scheduler.registry.find?_collect inUse t
    cases used : inUse t with
    | true =>
      rw [used, if_pos rfl] at record
      have same : (p.collect inUse).status? t = p.status? t := congrArg (Option.map _) record
      exact .inl (same.trans done)
    | false =>
      rw [used, if_neg Bool.false_ne_true] at record
      exact .inr (.inl ⟨inUse, rfl, used, record⟩)
  | sync now interval =>
    left
    show ((p.scheduler.registry.sync now interval).2.find? t).map (·.status) = some .done
    rw [Registry.find?_sync, Option.map_map]
    refine Eq.trans (Option.map_congr fun r _ => ?_) done
    show (if r.isSyncDue now interval then r.markSynced now else r).status = r.status
    split <;> rfl
  | work errands => exact .inl done
  | tick plan now =>
    have later : ∃ after ∈ [CompilationStatus.done], (p.tick plan now).status? t = some after :=
      status?_tick synced ended exclusive done
    obtain ⟨after, member, status⟩ := later
    rw [List.mem_singleton.mp member] at status
    exact .inl status

/-- Between events no compile has just finished. A request moves only a status that stands at the
start, an upload reschedules exactly what it concerns, and a tick goes forward, or back to wait;
what is done stays done until an upload concerns it or its record is dropped. Every compile that a
tick takes over is ended in it. -/
theorem statuses_move_legally (settings : SchedulerSettings) (externals : List Signature)
    (events : List Event) :
    let p := (new settings externals).run events
    (∀ t, p.status? t ≠ some .compiled) ∧
    (∀ source now t, (p.step (.request source now)).status? t =
      if t = source ∧ (p.status? t = none ∨ p.status? t = some .none) then some .scheduled
      else p.status? t) ∧
    (∀ source now t,
      (p.Concerns source t →
        (p.step (.invalidate source now)).status? t = (p.status? t).map fun _ => .scheduled) ∧
      (¬p.Concerns source t → (p.step (.invalidate source now)).status? t = p.status? t)) ∧
    (∀ plan now t,
      (p.status? t = none → (p.step (.tick plan now)).status? t = none) ∧
      ∀ status, p.status? t = some status →
        ∃ after ∈ status.afterTick, (p.step (.tick plan now)).status? t = some after) ∧
    (∀ event t, p.status? t = some .done →
      (p.step event).status? t = some .done ∨
        (∃ inUse, event = .collect inUse ∧ inUse t = false ∧ (p.step event).record? t = none) ∨
        ∃ source now, p.Concerns source t ∧
          (event = .invalidate source now ∨ ∃ state, event = .upload source state now)) ∧
    ∀ plan now, (p.scheduler.tick (Yard.dispatcher plan) p.yard now).1.finalized =
      (p.scheduler.tick (Yard.dispatcher plan) p.yard now).1.committed := by
  intro p
  have synced : p.Synced := run_synced settings externals events
  have ended : p.Ended := ended_run settings externals events
  have exclusive : ∀ t, (p.desk t).Exclusive := exclusive_run settings externals events
  refine ⟨fun t compiled => ?_, status?_request p, status?_invalidate p, fun plan now t => ⟨?_, ?_⟩,
    ?_, fun plan now => finalized_tick synced exclusive⟩
  · obtain ⟨r, found, status⟩ := Option.map_eq_some_iff.mp compiled
    exact ended t r found status
  · intro absent
    rw [status?_eq_none] at absent ⊢
    show t ∉ (p.scheduler.tick (Yard.dispatcher plan) p.yard now).2.1.sources
    rwa [Scheduler.sources_tick]
  · intro status before
    exact status?_tick synced ended (exclusive t) before
  · intro event t done
    exact done_step synced ended (exclusive t) event done

/-- A job that is put aside, and whose report waits for a tick. -/
def reportedRun : List Event :=
  [.request (.ofPath "main.asm") 0, .tick .park 0, .work [.run 0, .send 0]]

theorem compiling_goes_on :
    ((new {} []).run reportedRun).status? (.ofPath "main.asm") = some .compiling ∧
      ∃ after ∈ CompilationStatus.compiling.afterTick,
        (((new {} []).run reportedRun).step (.tick .park 1)).status? (.ofPath "main.asm") =
          some after := by
  have compiling : ((new {} []).run reportedRun).status? (.ofPath "main.asm") = some .compiling := by
    decide +kernel
  exact ⟨compiling,
    ((statuses_move_legally {} [] reportedRun).2.2.2.1 .park 1 (.ofPath "main.asm")).2 _ compiling⟩

end Plant

end RobotArena
