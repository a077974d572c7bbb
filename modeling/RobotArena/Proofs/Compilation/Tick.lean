import Mathlib.Logic.Relation
import RobotArena.Proofs.Compilation.Plant

/-!
# The stages of a tick

A tick hands out jobs, takes over results and ends compiles, one source or one result at a time. The
main statement is that a tick is a sequence of such stages, so that what each stage keeps is kept by
ticks.
-/

namespace RobotArena

namespace Scheduler

/-! ### What each stage does to the record of a source -/

/-- What taking over a result makes of the record of its source. -/
def settled (s : Scheduler) (now : Nat) (result : JobResult) (r : CompilationRecord) :
    CompilationRecord :=
  if r.generation ≠ result.generation then { r with inFlight := false }
  else
    match result.outcome with
    | .compiled program _ =>
      { r with inFlight := false }.finish s.registry.nextVersion (some program)
        program.diagnostics .compiled
    | .failed diagnostics _ =>
      { r with inFlight := false }.finish s.registry.nextVersion none diagnostics .compiled
    | .waiting progress =>
      ({ r with inFlight := false }.setProgress progress).schedule (now + s.backoff)

theorem find?_modify (s : Scheduler) (source t : SourceId)
    (change : CompilationRecord → CompilationRecord) (keeps : ∀ r, (change r).source = r.source) :
    (s.modify source change).registry.find? t =
      if t = source then (s.registry.find? t).map change else s.registry.find? t :=
  s.registry.find?_modify source t change keeps

theorem find?_finish (s : Scheduler) (source t : SourceId) (program : Option Program)
    (diagnostics : List Diagnostic) (dependencies : List SourceId) :
    (s.finish source program diagnostics dependencies).registry.find? t =
      if t = source then
        (s.registry.find? t).map (·.finish s.registry.nextVersion program diagnostics .compiled)
      else s.registry.find? t := by
  refine s.registry.find?_modify source t _ fun r => ?_
  rw [CompilationRecord.finish_eq]

/-- Taking over a result settles the record of its source and leaves the others alone. -/
theorem find?_commit (s : Scheduler) (now : Nat) (result : JobResult) (t : SourceId) :
    (s.commit now result).1.registry.find? t =
      if t = result.source then (s.registry.find? t).map (s.settled now result)
      else s.registry.find? t := by
  have landed := fun t => s.find?_modify result.source t ({ · with inFlight := false }) fun _ => rfl
  unfold commit
  cases found : s.registry.find? result.source with
  | none =>
    by_cases same : t = result.source
    · simp [same, found]
    · simp [same]
  | some r =>
    dsimp only
    split
    · rename_i stale
      rw [landed]
      by_cases same : t = result.source
      · simp [same, found, settled, stale]
      · simp [same]
    · rename_i current
      have current : r.generation = result.generation := Decidable.not_not.mp current
      have delayed := fun progress => (s.modify result.source ({ · with inFlight := false })).find?_modify
        result.source t (fun r => (r.setProgress progress).schedule (now + s.backoff)) fun r => by
          rw [CompilationRecord.schedule_eq, CompilationRecord.setProgress_eq]
      by_cases same : t = result.source
      · subst same
        cases outcome : result.outcome with
        | compiled program dependencies =>
          simp [find?_finish, landed, found, settled, current, outcome]
          rfl
        | failed diagnostics dependencies =>
          simp [find?_finish, landed, found, settled, current, outcome]
          rfl
        | waiting progress =>
          refine (delayed progress).trans ?_
          simp [landed, found, settled, current, outcome]
      · cases outcome : result.outcome with
        | compiled program dependencies => simp [find?_finish, landed, same]
        | failed diagnostics dependencies => simp [find?_finish, landed, same]
        | waiting progress =>
          refine (delayed progress).trans ?_
          simp [landed, same]

theorem nextGeneration_commit (s : Scheduler) (now : Nat) (result : JobResult) :
    (s.commit now result).1.registry.nextGeneration = s.registry.nextGeneration := by
  unfold commit
  split
  · rfl
  · dsimp only
    split
    · rfl
    · split <;> rfl

/-- Only a finished compile that answers the latest request for its source changes the graph. -/
theorem graph_commit (s : Scheduler) (now : Nat) (result : JobResult) :
    (s.commit now result).1.graph =
      match result.outcome.dependencies? with
      | some dependencies =>
        if (s.registry.find? result.source).map (·.generation) = some result.generation then
          s.graph.set result.source dependencies
        else s.graph
      | none => s.graph := by
  unfold commit
  cases found : s.registry.find? result.source with
  | none => cases result.outcome <;> rfl
  | some r =>
    dsimp only
    split
    · rename_i stale
      cases result.outcome <;> simp [JobOutcome.dependencies?, stale, modify]
    · rename_i current
      have current : r.generation = result.generation := Decidable.not_not.mp current
      cases result.outcome <;> simp [JobOutcome.dependencies?, current, modify, finish]

theorem find?_finalize (s : Scheduler) (count : Nat) (source t : SourceId) :
    (finalize (s, count) source).1.registry.find? t =
      if t = source then
        (s.registry.find? t).map fun r => if r.status = .compiled then r.setStatus .done else r
      else s.registry.find? t := by
  have ended := s.find?_modify source t (·.setStatus .done) fun r => by
    rw [CompilationRecord.setStatus_eq]
  cases found : s.registry.find? source with
  | none =>
    by_cases same : t = source
    · simp [finalize, same, found]
    · simp [finalize, same, found]
  | some r =>
    by_cases compiled : r.status = .compiled
    · simp only [finalize, found, compiled, if_true]
      refine ended.trans ?_
      by_cases same : t = source
      · simp [same, found, compiled]
      · simp [same]
    · by_cases same : t = source
      · simp [finalize, same, found, compiled]
      · simp [finalize, same, found, compiled]

/-! ### What the stages count does not matter -/

theorem dispatch_count {σ : Type} (dispatcher : Dispatcher σ) (now : Nat) (s : Scheduler) (env : σ)
    (count : Nat) (source : SourceId) :
    (dispatch dispatcher now (s, env, count) source).1 =
        (dispatch dispatcher now (s, env, 0) source).1 ∧
      (dispatch dispatcher now (s, env, count) source).2.1 =
        (dispatch dispatcher now (s, env, 0) source).2.1 := by
  cases found : s.registry.find? source with
  | none => simp [dispatch, found]
  | some r =>
    cases due : r.isDue now with
    | false => simp [dispatch, found, due]
    | true =>
      rcases answer : dispatcher ⟨source, r.generation⟩ env with ⟨acceptance, env'⟩
      cases acceptance <;> simp [dispatch, found, due, answer]

theorem finalize_count (s : Scheduler) (count : Nat) (source : SourceId) :
    (finalize (s, count) source).1 = (finalize (s, 0) source).1 := by
  cases found : s.registry.find? source with
  | none => simp [finalize, found]
  | some r =>
    by_cases compiled : r.status = .compiled
    · simp [finalize, found, compiled]
    · simp [finalize, found, compiled]

/-- Ends the compiles of sources that have just finished. -/
def finalizeAll (sources : List SourceId) (s : Scheduler) : Scheduler :=
  (sources.foldl finalize (s, 0)).1

theorem finalizeAll_cons (source : SourceId) (rest : List SourceId) (s : Scheduler) :
    finalizeAll (source :: rest) s = finalizeAll rest (finalize (s, 0) source).1 := by
  have counts (sources : List SourceId) (s : Scheduler) (count : Nat) :
      (sources.foldl finalize (s, count)).1 = (sources.foldl finalize (s, 0)).1 := by
    induction sources generalizing s count with
    | nil => rfl
    | cons source rest ih =>
      have same := finalize_count s count source
      rcases here : finalize (s, count) source with ⟨s', count'⟩
      rcases first : finalize (s, 0) source with ⟨s'', count''⟩
      rw [here, first] at same
      rw [List.foldl_cons, List.foldl_cons, here, first, ih s' count', ih s'' count'']
      exact congrArg (fun s => (rest.foldl finalize (s, 0)).1) same
  exact counts rest _ _

theorem commitAll_cons (now : Nat) (result : JobResult) (rest : List JobResult) (s : Scheduler) :
    (commitAll now (result :: rest) s).1 = (commitAll now rest (s.commit now result).1).1 := by
  rw [commitAll]
  rcases s.commit now result with ⟨s', what⟩
  cases what <;> rfl

/-- The sources that are answered are those whose results were committed. -/
theorem mem_commitAll_cons {now : Nat} {result : JobResult} {rest : List JobResult} {s : Scheduler}
    {t : SourceId} :
    t ∈ (commitAll now (result :: rest) s).2.1 ↔
      (t = result.source ∧ (s.commit now result).2 = .committed) ∨
        t ∈ (commitAll now rest (s.commit now result).1).2.1 := by
  rw [commitAll]
  rcases s.commit now result with ⟨s', what⟩
  cases what with
  | committed => simp
  | discarded => simp

/-! ### Results that come in meanwhile are left for the next tick -/

theorem inbox_commit (s : Scheduler) (now : Nat) (result : JobResult) :
    (s.commit now result).1.inbox = s.inbox := by
  unfold commit
  split
  · rfl
  · dsimp only
    split
    · rfl
    · split <;> rfl

theorem inbox_commitAll (now : Nat) (results : List JobResult) (s : Scheduler) :
    (commitAll now results s).1.inbox = s.inbox := by
  induction results generalizing s with
  | nil => rfl
  | cons result rest ih => rw [commitAll_cons, ih, inbox_commit]

/-- Ending compiles changes nothing but records. -/
theorem finalizeAll_eq (sources : List SourceId) (s : Scheduler) :
    finalizeAll sources s = { s with registry := (finalizeAll sources s).registry } := by
  induction sources generalizing s with
  | nil => rfl
  | cons source rest ih =>
    have first : (finalize (s, 0) source).1 =
        { s with registry := (finalize (s, 0) source).1.registry } := by
      cases found : s.registry.find? source with
      | none => simp [finalize, found]
      | some r =>
        simp only [finalize, found]
        split <;> rfl
    rw [finalizeAll_cons, ih, first]

end Scheduler

/-- Reschedules sources. -/
def Registry.rescheduleAll (g : Registry) (sources : List SourceId) (now : Nat) : Registry :=
  sources.foldl (fun g source => g.reschedule source now) g

/-- Rescheduling sources numbers their records in order and leaves the others alone. -/
theorem Registry.find?_rescheduleAll (g : Registry) {sources : List SourceId}
    (distinct : sources.Nodup) (now : Nat) (t : SourceId) :
    (g.rescheduleAll sources now).find? t =
      if t ∈ sources then (g.find? t).map (·.reschedule (g.nextGeneration + sources.idxOf t) now)
      else g.find? t := by
  induction sources generalizing g with
  | nil => rfl
  | cons source rest ih =>
    obtain ⟨alone, distinct⟩ := List.nodup_cons.mp distinct
    have later : (g.rescheduleAll (source :: rest) now).find? t = _ :=
      ih (g.reschedule source now) distinct
    have next : (g.reschedule source now).nextGeneration = g.nextGeneration + 1 := rfl
    rw [later, next, find?_reschedule]
    by_cases same : t = source
    · subst same
      rw [if_neg alone, if_pos rfl, if_pos List.mem_cons_self, List.idxOf_cons_self, Nat.add_zero]
    · rw [if_neg same, List.idxOf_cons_ne _ (Ne.symm same), Nat.add_right_comm, Nat.add_assoc]
      simp only [List.mem_cons, same, false_or]

namespace Plant

/-- The results that have come in are those of the reports that were sent. -/
def Synced (p : Plant) : Prop :=
  p.scheduler.inbox = p.yard.sent.map Report.result

/-! ### Handing out jobs -/

/-- Offering a job does nothing, or the job is refused, or it is accepted and errands are run. -/
theorem offer_cases (plan : Plan) (now : Nat) (p : Plant) (source : SourceId) :
    p.offer plan now source = p ∨
    ∃ r, p.record? source = some r ∧ r.isDue now = true ∧
      (p.offer plan now source =
          { p with
            scheduler := (p.scheduler.modify source (·.start)).modify source
              (·.postpone (now + p.scheduler.backoff)) } ∨
        ∃ errands, p.offer plan now source =
          { p with
            scheduler :=
              (p.scheduler.modify source (·.start)).receive
                ((p.yard.accept ⟨source, r.generation⟩).performAll errands).1
            yard := ((p.yard.accept ⟨source, r.generation⟩).performAll errands).2 }) := by
  cases found : p.scheduler.registry.find? source with
  | none => exact Or.inl (by simp [offer, Scheduler.dispatch, found])
  | some r =>
    cases due : r.isDue now with
    | false => exact Or.inl (by simp [offer, Scheduler.dispatch, found, due])
    | true =>
      refine Or.inr ⟨r, found, due, ?_⟩
      cases planned : plan ⟨source, r.generation⟩ p.yard with
      | none =>
        exact Or.inl (by simp [offer, Scheduler.dispatch, found, due, Yard.dispatcher, planned,
          Scheduler.backoff, Scheduler.modify])
      | some errands =>
        exact Or.inr ⟨errands, by simp [offer, Scheduler.dispatch, found, due, Yard.dispatcher,
          planned, Scheduler.receive, Scheduler.modify]⟩

theorem offer_synced {plan : Plan} {now : Nat} {p : Plant} (source : SourceId) (synced : p.Synced) :
    (p.offer plan now source).Synced := by
  rcases p.offer_cases plan now source with same | ⟨r, _, _, refused | ⟨errands, accepted⟩⟩
  · rwa [same]
  · rw [refused]
    exact synced
  · rw [accepted]
    have sent := (p.yard.accept ⟨source, r.generation⟩).sent_performAll errands
    exact (congrArg (· ++ _) synced).trans sent.symm

theorem handOut_eq_foldl (plan : Plan) (now : Nat) (p : Plant) :
    p.handOut plan now = p.scheduler.demanded.foldl (offer plan now) p := by
  have folded : ∀ (sources : List SourceId) (s : Scheduler) (y : Yard) (count : Nat),
      sources.foldl (offer plan now) { p with scheduler := s, yard := y } =
        { p with
          scheduler := (sources.foldl (Scheduler.dispatch (Yard.dispatcher plan) now) (s, y, count)).1
          yard := (sources.foldl (Scheduler.dispatch (Yard.dispatcher plan) now) (s, y, count)).2.1 } := by
    intro sources
    induction sources with
    | nil => intros; rfl
    | cons source rest ih =>
      intro s y count
      obtain ⟨scheduler, yard⟩ :=
        Scheduler.dispatch_count (Yard.dispatcher plan) now s y count source
      let next := Scheduler.dispatch (Yard.dispatcher plan) now (s, y, count) source
      rw [List.foldl_cons, List.foldl_cons]
      refine Eq.trans ?_ (ih next.1 next.2.1 next.2.2)
      simp only [next, scheduler, yard]
      rfl
  exact (folded _ p.scheduler p.yard 0).symm

theorem handOut_synced (plan : Plan) (now : Nat) {p : Plant} (synced : p.Synced) :
    (p.handOut plan now).Synced := by
  rw [handOut_eq_foldl]
  generalize p.scheduler.demanded = sources
  induction sources generalizing p with
  | nil => exact synced
  | cons source rest ih => exact ih (offer_synced source synced)

/-! ### Taking over results -/

theorem takeOver_nil {now : Nat} {p : Plant} (none : p.yard.sent = []) : p.takeOver now = p := by
  simp [takeOver, none]

/-- The state after a report was taken over, with others left. -/
def takenOver (now : Nat) (p : Plant) (r : Report) (rest : List Report) : Plant :=
  { scheduler := (p.scheduler.commit now r.result).1
    yard := { p.yard with sent := rest }.mark (· = r.job.source) Fate.overtake
    taken := fun source =>
      if source = r.job.source ∧ p.Answers r then
        some ⟨r.reading, !decide (p.yard.library.Holds r.reading)⟩
      else p.taken source }

theorem takeOver_cons {now : Nat} {p : Plant} {r : Report} {rest : List Report}
    (sent : p.yard.sent = r :: rest) : p.takeOver now = p.takenOver now r rest := by
  simp only [takeOver, sent]
  rfl

theorem takeOver_sent (now : Nat) (p : Plant) :
    (p.takeOver now).yard.sent.map Report.result = (p.yard.sent.map Report.result).tail := by
  cases sent : p.yard.sent with
  | nil =>
    rw [takeOver_nil sent, sent]
    rfl
  | cons r rest =>
    rw [takeOver_cons sent]
    exact Yard.results_mark { p.yard with sent := rest } _ _

/-- Taking over reports one by one is taking over their results. -/
theorem takeOver_iterate (now : Nat) (results later : List JobResult) (p : Plant)
    (sent : p.yard.sent.map Report.result = results ++ later) :
    ((takeOver now)^[results.length] p).scheduler =
        (Scheduler.commitAll now results p.scheduler).1 ∧
      ((takeOver now)^[results.length] p).yard.sent.map Report.result = later := by
  induction results generalizing p with
  | nil => exact ⟨rfl, sent⟩
  | cons result rest ih =>
    have next : (p.takeOver now).scheduler = (p.scheduler.commit now result).1 := by
      cases front : p.yard.sent with
      | nil => simp [front] at sent
      | cons r others =>
        rw [front, List.map_cons, List.cons_append] at sent
        rw [takeOver_cons front, ← (List.cons.inj sent).1]
        rfl
    have remain : (p.takeOver now).yard.sent.map Report.result = rest ++ later := by
      rw [takeOver_sent, sent]
      rfl
    obtain ⟨scheduler, left⟩ := ih (p.takeOver now) remain
    rw [List.length_cons, Function.iterate_succ_apply, Scheduler.commitAll_cons, ← next]
    exact ⟨scheduler, left⟩

/-! ### The tick as a whole -/

/-- A stage of a tick. -/
inductive Stage (plan : Plan) (now : Nat) : Plant → Plant → Prop where
  | offer (p : Plant) (source : SourceId) : Stage plan now p (p.offer plan now source)
  | rearrange (p : Plant) (inbox : List JobResult) (demanded : List SourceId) :
      Stage plan now p (p.rearrange inbox demanded)
  | takeOver (p : Plant) : Stage plan now p (p.takeOver now)
  | finalize (p : Plant) (source : SourceId) : Stage plan now p (p.finalize source)

/-- Stages of a tick, one after the other. -/
abbrev Stages (plan : Plan) (now : Nat) : Plant → Plant → Prop :=
  Relation.ReflTransGen (Stage plan now)

variable {plan : Plan} {now : Nat}

theorem Stages.keep {P : Plant → Prop} (stage : ∀ {p q : Plant}, P p → Stage plan now p q → P q)
    {p q : Plant} (stages : Stages plan now p q) (start : P p) : P q := by
  induction stages with
  | refl => exact start
  | tail _ last ih => exact stage ih last

theorem stages_offers (plan : Plan) (now : Nat) (sources : List SourceId) (p : Plant) :
    Stages plan now p (sources.foldl (Plant.offer plan now) p) := by
  induction sources generalizing p with
  | nil => exact .refl
  | cons source rest ih => exact (ih _).head (.offer p source)

theorem stages_opened (p : Plant) : Stages plan now p (p.opened plan now) := by
  have offers := stages_offers plan now p.scheduler.demanded p
  rw [← handOut_eq_foldl] at offers
  exact offers.tail (.rearrange _ _ _)

theorem stages_takeOvers (count : Nat) (p : Plant) :
    Stages plan now p ((Plant.takeOver now)^[count] p) := by
  induction count generalizing p with
  | zero => exact .refl
  | succ count ih =>
    rw [Function.iterate_succ_apply]
    exact (ih _).head (.takeOver p)

theorem stages_finalize (sources : List SourceId) (p : Plant) :
    Stages plan now p (sources.foldl Plant.finalize p) := by
  induction sources generalizing p with
  | nil => exact .refl
  | cons source rest ih => exact (ih _).head (.finalize p source)

theorem foldl_finalize (sources : List SourceId) (p : Plant) :
    sources.foldl Plant.finalize p =
      { p with scheduler := Scheduler.finalizeAll sources p.scheduler } := by
  induction sources generalizing p with
  | nil => rfl
  | cons source rest ih =>
    rw [List.foldl_cons, ih, Scheduler.finalizeAll_cons]
    rfl

/-- The state of a tick in which all results have been taken over. -/
def drained (plan : Plan) (now : Nat) (p : Plant) : Plant :=
  (takeOver now)^[(p.opened plan now).yard.sent.length] (p.opened plan now)

theorem drained_scheduler {p : Plant} (synced : p.Synced) :
    (p.drained plan now).scheduler =
      (Scheduler.commitAll now (p.handOut plan now).scheduler.inbox
        (p.opened plan now).scheduler).1 := by
  have inbox := handOut_synced plan now synced
  have taken := takeOver_iterate now _ [] (p.opened plan now) (List.append_nil _).symm
  rw [List.length_map] at taken
  rw [inbox]
  exact taken.1

/-- After all results are taken over, a tick only ends compiles. -/
theorem tick_eq (plan : Plan) (now : Nat) {p : Plant} (synced : p.Synced) :
    ∃ committed,
      committed = (Scheduler.commitAll now (p.handOut plan now).scheduler.inbox
        (p.opened plan now).scheduler).2.1 ∧
      p.tick plan now = (committed.foldl Plant.finalize (p.drained plan now)).rearrange
        (committed.foldl Plant.finalize (p.drained plan now)).scheduler.inbox [] := by
  refine ⟨_, rfl, ?_⟩
  rw [foldl_finalize, drained_scheduler synced]
  rfl

/-- Taking over reports leaves the jobs that are still run and the reports that are still to be sent
as they are, but for marks. -/
theorem yard_takeOvers (count : Nat) (p : Plant) :
    ((takeOver now)^[count] p).yard.library = p.yard.library ∧
      ((takeOver now)^[count] p).yard.waiting.map (·.job) = p.yard.waiting.map (·.job) ∧
      ((takeOver now)^[count] p).yard.finished.map Report.result =
        p.yard.finished.map Report.result := by
  induction count generalizing p with
  | zero => exact ⟨rfl, rfl, rfl⟩
  | succ count ih =>
    have first : (p.takeOver now).yard.library = p.yard.library ∧
        (p.takeOver now).yard.waiting.map (·.job) = p.yard.waiting.map (·.job) ∧
        (p.takeOver now).yard.finished.map Report.result = p.yard.finished.map Report.result := by
      cases sent : p.yard.sent with
      | nil => simp [takeOver_nil sent]
      | cons r rest =>
        rw [takeOver_cons sent]
        refine ⟨rfl, ?_, ?_⟩
        · exact List.map_map
        · exact List.map_map
    obtain ⟨library, waiting, finished⟩ := ih (p.takeOver now)
    rw [Function.iterate_succ_apply]
    exact ⟨library.trans first.1, waiting.trans first.2.1, finished.trans first.2.2⟩

/-- After a tick the dispatcher holds what the plant has, but for marks. -/
theorem yard_tick (plan : Plan) (now : Nat) (p : Plant) :
    (p.tick plan now).yard.library =
        (p.scheduler.tick (Yard.dispatcher plan) p.yard now).2.2.library ∧
      (p.tick plan now).yard.waiting.map (·.job) =
        (p.scheduler.tick (Yard.dispatcher plan) p.yard now).2.2.waiting.map (·.job) ∧
      (p.tick plan now).yard.finished.map Report.result =
        (p.scheduler.tick (Yard.dispatcher plan) p.yard now).2.2.finished.map Report.result :=
  yard_takeOvers _ (p.opened plan now)

theorem stages_drained (p : Plant) : Stages plan now (p.opened plan now) (p.drained plan now) :=
  stages_takeOvers _ _

theorem stages_closed {p : Plant} (synced : p.Synced) :
    Stages plan now (p.drained plan now) (p.tick plan now) := by
  obtain ⟨committed, _, tick⟩ := tick_eq plan now synced
  rw [tick]
  exact (stages_finalize committed _).tail (.rearrange _ _ _)

theorem stages_tick {p : Plant} (synced : p.Synced) : Stages plan now p (p.tick plan now) :=
  (stages_opened p).trans ((stages_drained p).trans (stages_closed synced))

/-! ### Every run keeps the results that have come in and the reports that were sent in step -/

/-- An upload reschedules the records that it concerns, and no others. -/
theorem invalidate_scheduler (p : Plant) (source : SourceId) (now : Nat) :
    (p.invalidate source now).scheduler =
      { p.scheduler with
        registry := p.scheduler.registry.rescheduleAll (p.concerned source) now } := by
  by_cases unknown : ((p.concerned source).isEmpty && !p.scheduler.graph.contains source) = true
  · have answer : p.scheduler.invalidate source now = .error ⟨source⟩ := if_pos unknown
    have none : p.concerned source = [] :=
      List.isEmpty_iff.mp (Bool.and_eq_true_iff.mp unknown).1
    simp only [invalidate, answer, none]
    rfl
  · have answer : p.scheduler.invalidate source now = .ok (_, _) := if_neg unknown
    simp only [invalidate, answer]
    rfl

theorem tick_synced {p : Plant} (synced : p.Synced) : (p.tick plan now).Synced := by
  obtain ⟨committed, _, tick⟩ := tick_eq plan now synced
  have taken := takeOver_iterate now _ [] (p.opened plan now) (List.append_nil _).symm
  rw [List.length_map] at taken
  rw [tick, foldl_finalize, Synced]
  refine Eq.trans ?_ taken.2.symm
  show (Scheduler.finalizeAll committed (p.drained plan now).scheduler).inbox = []
  rw [Scheduler.finalizeAll_eq, drained_scheduler synced]
  exact Scheduler.inbox_commitAll _ _ _

theorem step_synced {p : Plant} (event : Event) (synced : p.Synced) : (p.step event).Synced := by
  cases event with
  | supply source state => exact synced
  | upload source state now =>
    rw [step, Synced, invalidate_scheduler]
    exact synced.trans (Yard.results_mark _ _ _).symm
  | ensure source now => exact synced
  | request source now => exact synced
  | invalidate source now =>
    rw [step, Synced, invalidate_scheduler]
    exact synced.trans (Yard.results_mark _ _ _).symm
  | publish source program now => exact synced.trans (Yard.results_mark _ _ _).symm
  | collect inUse => exact synced.trans (Yard.results_mark _ _ _).symm
  | sync now interval => exact synced
  | work errands =>
    exact (congrArg (· ++ _) synced).trans (p.yard.sent_performAll errands).symm
  | tick plan now => exact tick_synced synced

theorem run_synced (settings : SchedulerSettings) (externals : List Signature)
    (events : List Event) : ((new settings externals).run events).Synced :=
  run_keeps (fun _ event synced _ => step_synced event synced) rfl (follows_any _ _)

end Plant

end RobotArena
