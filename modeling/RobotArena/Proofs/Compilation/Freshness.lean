import RobotArena.Proofs.Compilation.Completion
import RobotArena.Proofs.Compilation.Dependents
import RobotArena.Proofs.Compilation.Flight
import RobotArena.Proofs.Compilation.Reading

/-!
# Programs and the texts they were compiled from

An upload reschedules its source and every source that is recorded to depend on it, and what a
source depends on is recorded when its result is taken over. So the program of a source whose compile
is done is up to date as long as it was when it was taken over; a text that changes after a job has
read it and before its result is taken over goes unnoticed if the dependency is new.
-/

namespace RobotArena

namespace Plant

/-- What was read is the text of a source and those of its recorded dependencies. -/
def Recorded (p : Plant) (source : SourceId) (reading : SourceTexts) : Prop :=
  ∀ s, s ∈ reading.map Prod.fst ↔ s = source ∨ (source, s) ∈ p.scheduler.graph.pairs

/-- A finished compile has read what the library holds, unless it was late when it was taken over,
and what it has read is recorded. -/
def Backed (p : Plant) (source : SourceId) : Prop :=
  ∀ r, p.record? source = some r → r.Finished →
    ∃ k, p.taken source = some k ∧ (p.yard.library.Holds k.reading ↔ k.late = false) ∧
      p.Recorded source k.reading

variable {p q : Plant} {t : SourceId}

/-- A source is still backed if its compile is not newly finished and the texts that matter for it
are still the same. -/
theorem Backed.of_same (h : p.Backed t)
    (record : ∀ r, q.record? t = some r → r.Finished → ∃ r, p.record? t = some r ∧ r.Finished)
    (taken : q.taken t = p.taken t)
    (texts : ∀ reading, p.Recorded t reading →
      (q.yard.library.Holds reading ↔ p.yard.library.Holds reading))
    (edges : ∀ s, (t, s) ∈ q.scheduler.graph.pairs ↔ (t, s) ∈ p.scheduler.graph.pairs) :
    q.Backed t := by
  intro r found finished
  obtain ⟨r, found, finished⟩ := record r found finished
  obtain ⟨k, took, fresh, recorded⟩ := h r found finished
  refine ⟨k, taken.trans took, (texts _ recorded).trans fresh, fun s => ?_⟩
  rw [recorded s, edges s]

/-! ### The stages of a tick -/

theorem Backed.offer (h : p.Backed t) (plan : Plan) (now : Nat) (source : SourceId) :
    (p.offer plan now source).Backed t := by
  have record (r : CompilationRecord) (found : (p.offer plan now source).record? t = some r)
      (finished : r.Finished) : ∃ r, p.record? t = some r ∧ r.Finished :=
    ⟨r, finished_offer found finished, finished⟩
  rcases p.offer_cases plan now source with same | ⟨r, _, _, refused | ⟨errands, accepted⟩⟩
  · rwa [same]
  · rw [refused] at record ⊢
    exact h.of_same record rfl (fun _ _ => Iff.rfl) fun _ => Iff.rfl
  · rw [accepted] at record ⊢
    have agrees := Yard.library_performAll (p.yard.accept ⟨source, r.generation⟩) errands
    exact h.of_same record rfl (fun reading _ => agrees.holds reading) fun _ => Iff.rfl

theorem graph_answered {r : Report} (now : Nat) (answers : p.Answers r)
    {dependencies : List SourceId} (finished : r.outcome.dependencies? = some dependencies) :
    (p.scheduler.commit now r.result).1.graph =
      p.scheduler.graph.set r.job.source dependencies := by
  have generation : (p.scheduler.registry.find? r.result.source).map (·.generation) =
      some r.result.generation := answers.1
  have outcome : r.result.outcome.dependencies? = some dependencies := finished
  rw [Scheduler.graph_commit, outcome]
  exact if_pos generation

theorem graph_unanswered {r : Report} (now : Nat) (answers : ¬p.Answers r) :
    (p.scheduler.commit now r.result).1.graph = p.scheduler.graph := by
  rw [Scheduler.graph_commit]
  cases finished : r.result.outcome.dependencies? with
  | none => rfl
  | some dependencies =>
    have stale : ¬(p.scheduler.registry.find? r.result.source).map (·.generation) =
        some r.result.generation := fun generation =>
      answers ⟨generation, Option.isSome_iff_exists.mpr ⟨dependencies, finished⟩⟩
    exact if_neg stale

/-- What a record has taken over is what was committed last. -/
theorem committed_iff_answers (p : Plant) (r : Report) (now : Nat) :
    (p.scheduler.commit now r.result).2 = .committed ↔ p.Answers r :=
  p.scheduler.committed_iff now r.result

/-- A result that does not answer the latest request, or has to wait, ends no compile. -/
theorem finished_unanswered {r : Report} {before : CompilationRecord} {now : Nat}
    (answers : ¬p.Answers r) (found : p.record? r.job.source = some before)
    (finished : (p.scheduler.settled now r.result before).Finished) : before.Finished := by
  have found : p.scheduler.registry.find? r.result.source = some before := found
  rcases Scheduler.finished_settled found finished with committed | kept
  · exact absurd ((committed_iff_answers p r now).mp committed) answers
  · rwa [CompilationRecord.Finished, ← kept]

/-- Taking over a result changes what other sources depend on in no way. -/
theorem mem_graph_other {r : Report} (now : Nat) (other : t ≠ r.job.source) (b : SourceId) :
    (t, b) ∈ (p.scheduler.commit now r.result).1.graph.pairs ↔ (t, b) ∈ p.scheduler.graph.pairs := by
  by_cases answers : p.Answers r
  · obtain ⟨dependencies, finished⟩ := Option.isSome_iff_exists.mp answers.2
    rw [graph_answered now answers finished, DependencyGraph.mem_pairs_set, if_neg other]
  · rw [graph_unanswered now answers]

/-- A compile that has just been taken over is backed by what its job had read. -/
theorem backed_answered {r : Report} (now : Nat) (rest : List Report) (answers : p.Answers r) :
    (p.takenOver now r rest).Backed r.job.source := by
  obtain ⟨dependencies, finished⟩ := Option.isSome_iff_exists.mp answers.2
  have taken : (p.takenOver now r rest).taken r.job.source =
      some ⟨r.reading, !decide (p.yard.library.Holds r.reading)⟩ := if_pos ⟨rfl, answers⟩
  have library : (p.takenOver now r rest).yard.library = p.yard.library := rfl
  have graph : (p.takenOver now r rest).scheduler.graph =
      p.scheduler.graph.set r.job.source dependencies := graph_answered now answers finished
  intro _ _ _
  refine ⟨_, taken, by simp [library], fun s => ?_⟩
  rw [graph, DependencyGraph.mem_pairs_set, if_pos rfl, r.covered dependencies finished,
    List.mem_cons]
  by_cases own : s = r.job.source
  · simp [own]
  · simp [own]

theorem Backed.takeOver (h : p.Backed t) (now : Nat) : (p.takeOver now).Backed t := by
  cases sent : p.yard.sent with
  | nil => rwa [takeOver_nil sent]
  | cons r rest =>
    have record : (p.takenOver now r rest).record? t =
        if t = r.job.source then (p.record? t).map (p.scheduler.settled now r.result)
        else p.record? t := p.scheduler.find?_commit now r.result t
    rw [takeOver_cons sent]
    by_cases same : t = r.job.source
    · subst same
      by_cases answers : p.Answers r
      · exact backed_answered now rest answers
      · have graph : (p.takenOver now r rest).scheduler.graph = p.scheduler.graph :=
          graph_unanswered now answers
        refine h.of_same (fun r' found finished => ?_) (if_neg (answers ·.2)) (fun _ _ => Iff.rfl)
          fun s => by rw [graph]
        rw [record, if_pos rfl] at found
        obtain ⟨before, was, rfl⟩ := Option.map_eq_some_iff.mp found
        exact ⟨before, was, finished_unanswered answers was finished⟩
    · refine h.of_same (fun r' found finished => ?_) (if_neg (same ·.1)) (fun _ _ => Iff.rfl)
        (mem_graph_other now same)
      rw [record, if_neg same] at found
      exact ⟨r', found, finished⟩

theorem Backed.finalize (h : p.Backed t) (source : SourceId) : (p.finalize source).Backed t := by
  have graph : (p.finalize source).scheduler.graph = p.scheduler.graph :=
    congrArg (·.graph) (Scheduler.finalizeAll_eq [source] p.scheduler)
  refine h.of_same (fun r' found finished => ?_) rfl (fun _ _ => Iff.rfl) fun s => by rw [graph]
  have found : (Scheduler.finalize (p.scheduler, 0) source).1.registry.find? t = some r' := found
  rw [Scheduler.find?_finalize] at found
  split at found
  · obtain ⟨before, was, rfl⟩ := Option.map_eq_some_iff.mp found
    refine ⟨before, was, ?_⟩
    split at finished
    · rename_i compiled
      exact .inl compiled
    · exact finished
  · exact ⟨r', found, finished⟩

theorem Backed.stage {plan : Plan} {now : Nat} (h : p.Backed t) (stage : Stage plan now p q) :
    q.Backed t := by
  cases stage with
  | offer source => exact h.offer plan now source
  | rearrange inbox demanded => exact h
  | takeOver => exact h.takeOver now
  | finalize source => exact h.finalize source

/-! ### Uploads -/

/-- A finished compile that an upload leaves alone has no record of reading the source. -/
theorem unrecorded_invalidate {r : CompilationRecord} {source : SourceId} {now : Nat}
    (found : (p.invalidate source now).record? t = some r) (finished : r.Finished) :
    p.record? t = some r ∧ t ≠ source ∧ (t, source) ∉ p.scheduler.graph.pairs := by
  obtain ⟨before, spared⟩ := finished_invalidate found finished
  have present : (p.record? t).isSome := Option.isSome_iff_exists.mpr ⟨r, before⟩
  have other : t ≠ source := fun same => spared (mem_concerned.mpr ⟨.inl same, present⟩)
  refine ⟨before, other, fun edge => ?_⟩
  have user : t ∈ p.scheduler.graph.dependents source :=
    DependencyGraph.mem_dependents_iff.mpr ⟨other, .single edge⟩
  exact spared (mem_concerned.mpr ⟨.inr user, present⟩)

theorem Backed.upload (h : p.Backed t) (source : SourceId) (state : Option Availability)
    (now : Nat) : ((p.supply source state).invalidate source now).Backed t := by
  intro r found finished
  obtain ⟨before, other, unrecorded⟩ := unrecorded_invalidate found finished
  obtain ⟨k, took, fresh, recorded⟩ := h r before finished
  have unread : source ∉ k.reading.map Prod.fst := by
    rw [recorded source]
    exact not_or.mpr ⟨Ne.symm other, unrecorded⟩
  have graph : ((p.supply source state).invalidate source now).scheduler.graph =
      p.scheduler.graph := by
    rw [invalidate_scheduler]
    rfl
  refine ⟨k, took, (p.yard.library.holds_put unread state).trans fresh, fun s => ?_⟩
  rw [graph]
  exact recorded s

/-! ### Runs in which changes are announced -/

/-- A change of a text is announced at once, and no program is published. -/
def Announced (p : Plant) : Event → Prop
  | .supply source state =>
    (p.yard.library.put source state).text? source = p.yard.library.text? source
  | .publish _ _ _ => False
  | _ => True

theorem agrees_announced {source : SourceId} {state : Option Availability}
    (announced : p.Announced (.supply source state)) :
    p.yard.library.Agrees (p.yard.library.put source state) := by
  intro t
  by_cases same : t = source
  · rw [same]
    exact announced
  · exact p.yard.library.text?_put same state

theorem Backed.collect (h : p.Backed t) (inUse : SourceId → Bool) : (p.collect inUse).Backed t := by
  intro r found finished
  obtain ⟨before, used⟩ := record?_collect found
  obtain ⟨k, took, fresh, recorded⟩ := h r before finished
  have kept : t ∉ p.scheduler.registry.unused inUse := fun gone => by
    rw [(Registry.mem_unused.mp gone).2] at used
    cases used
  have taken : (p.collect inUse).taken t = p.taken t := by
    simp only [Plant.collect, Scheduler.collect, List.contains_iff_mem, kept, if_false]
  have edges (gone : List SourceId) (spared : t ∉ gone) (g : DependencyGraph) (s : SourceId) :
      (t, s) ∈ (gone.foldl DependencyGraph.remove g).pairs ↔ (t, s) ∈ g.pairs := by
    induction gone generalizing g with
    | nil => exact Iff.rfl
    | cons source rest ih =>
      obtain ⟨first, later⟩ := not_or.mp (mt List.mem_cons.mpr spared)
      rw [List.foldl_cons, ih later, g.mem_pairs_remove]
      exact and_iff_right first
  refine ⟨k, taken.trans took, fresh, fun s => (recorded s).trans ?_⟩
  exact or_congr_right (edges _ kept _ s).symm

/-- What changes neither texts nor dependencies, and takes nothing over, may only end no compile. -/
theorem Backed.of_quiet (h : p.Backed t) {event : Event}
    (record : ∀ r, (p.step event).record? t = some r → r.Finished →
      ∃ r, p.record? t = some r ∧ r.Finished)
    (taken : (p.step event).taken = p.taken) (yard : (p.step event).yard.library = p.yard.library)
    (graph : (p.step event).scheduler.graph = p.scheduler.graph) : (p.step event).Backed t :=
  h.of_same record (congrFun taken t) (fun _ _ => by rw [yard]) fun s => by rw [graph]

theorem Backed.step (h : p.Backed t) (synced : p.Synced) {event : Event}
    (announced : p.Announced event) : (p.step event).Backed t := by
  cases event with
  | supply source state =>
    exact h.of_same (fun r found finished => ⟨r, found, finished⟩) rfl
      (fun reading _ => (agrees_announced announced).holds reading) fun _ => Iff.rfl
  | upload source state now => exact h.upload source state now
  | ensure source now =>
    refine h.of_quiet (fun r found finished => ⟨r, ?_, finished⟩) rfl rfl rfl
    exact Registry.finished_ensure found finished
  | request source now =>
    exact h.of_quiet (fun r found finished => ⟨r, finished_request found finished, finished⟩)
      rfl rfl rfl
  | invalidate source now =>
    refine h.of_quiet (fun r found finished => ⟨r, ?_, finished⟩) rfl rfl ?_
    · exact (finished_invalidate found finished).1
    · rw [Plant.step, invalidate_scheduler]
  | publish source program now => exact announced.elim
  | collect inUse => exact h.collect inUse
  | sync now interval =>
    refine h.of_quiet (fun r found finished => ?_) rfl rfl rfl
    obtain ⟨before, was, same⟩ := status_sync found
    exact ⟨before, was, by rwa [CompilationRecord.Finished, same]⟩
  | work errands =>
    exact h.of_same (fun r found finished => ⟨r, found, finished⟩) rfl
      (fun reading _ => (p.yard.library_performAll errands).holds reading) fun _ => Iff.rfl
  | tick plan now => exact (stages_tick synced).keep (P := (·.Backed t)) Backed.stage h

theorem backed_run (settings : SchedulerSettings) (externals : List Signature) {events : List Event}
    (announced : Follows Announced (new settings externals) events) (t : SourceId) :
    ((new settings externals).run events).Backed t := by
  have start : (new settings externals).Synced ∧ (new settings externals).Backed t :=
    ⟨rfl, fun r found _ => by cases found⟩
  exact (run_keeps (P := fun p => p.Synced ∧ p.Backed t)
    (fun _ event kept rule => ⟨step_synced event kept.1, kept.2.step kept.1 rule⟩) start announced).2

/-! ### Runs in which uploads reach every job that has read the text -/

/-- An upload that changes a text that a pending report has read concerns the source of the report,
as its own text or by a dependency recorded before. -/
def Heeding (p : Plant) : Event → Prop
  | .upload source state _ =>
    (p.yard.library.put source state).text? source ≠ p.yard.library.text? source →
      ∀ r ∈ p.yard.reports, r.Pending → source ∈ r.reading.map Prod.fst →
        r.job.source ∈ p.scheduler.targets source
  | _ => True

/-- What pending reports have read is still so, and no result was late. -/
structure Prompt (p : Plant) : Prop where
  fresh : p.yard.Fresh
  numbered : ∀ t, (p.desk t).Numbered
  watched : ∀ t, (p.desk t).Watched
  taken : ∀ t k, p.taken t = some k → k.late = false

theorem Prompt.of_effects (h : p.Prompt) (effects : ∀ t, Effects (p.desk t) (q.desk t))
    (fresh : q.yard.Fresh) (taken : ∀ t k, q.taken t = some k → k.late = false) : q.Prompt :=
  { fresh, taken
    numbered := fun t => (effects t).keep Desk.Numbered.effect (h.numbered t)
    watched := fun t => (effects t).keep Desk.Watched.effect (h.watched t) }

theorem Prompt.fresh_takenOver (h : p.Prompt) {r : Report} {rest : List Report}
    (sent : p.yard.sent = r :: rest) (now : Nat) : (p.takenOver now r rest).yard.Fresh := by
  have remain : ({ p.yard with sent := rest } : Yard).Fresh := by
    refine h.fresh.of_reports (fun _ => rfl) h.fresh.distinct fun r' member pending =>
      ⟨r', ?_, pending, rfl⟩
    refine (List.mem_append.mp member).elim (List.mem_append_left _) fun later => ?_
    exact List.mem_append_right _ (sent ▸ List.mem_cons_of_mem _ later)
  exact remain.mark _ fun _ => ⟨id, id⟩

/-- A report that answers the latest request is pending, so it is not late. -/
theorem Prompt.taken_takenOver (h : p.Prompt) {r : Report} {rest : List Report}
    (sent : p.yard.sent = r :: rest) (now : Nat) (t : SourceId) (k : Takeover)
    (took : (p.takenOver now r rest).taken t = some k) : k.late = false := by
  unfold takenOver at took
  dsimp only at took
  split at took
  · rename_i answered
    have here : r ∈ p.yard.reports := List.mem_append_right _ (sent ▸ List.mem_cons_self)
    obtain ⟨record, found, generation⟩ := Option.map_eq_some_iff.mp answered.2.1
    have current := (h.numbered r.job.source).current record found r.toTicket
      (Yard.ticket_of_report here) generation.symm
    have holds : p.yard.library.Holds r.reading := h.fresh.held r here ⟨answered.2.2, current⟩
    rw [← Option.some.inj took]
    simp [holds]
  · exact h.taken t k took

theorem Prompt.stage {plan : Plan} {now : Nat} (h : p.Prompt) (stage : Stage plan now p q) :
    q.Prompt := by
  have effects := fun t => effects_stage t stage
  cases stage with
  | offer source =>
    rcases p.offer_cases plan now source with same | ⟨r, _, _, refused | ⟨errands, accepted⟩⟩
    · rwa [same]
    · rw [refused] at effects ⊢
      exact h.of_effects effects h.fresh h.taken
    · rw [accepted] at effects ⊢
      have handed : (p.yard.accept ⟨source, r.generation⟩).Fresh := ⟨h.fresh.distinct, h.fresh.held⟩
      exact h.of_effects effects (handed.performAll errands) h.taken
  | rearrange inbox demanded => exact h.of_effects effects h.fresh h.taken
  | takeOver =>
    cases sent : p.yard.sent with
    | nil => rwa [takeOver_nil sent]
    | cons r rest =>
      rw [takeOver_cons sent] at effects ⊢
      exact h.of_effects effects (h.fresh_takenOver sent now) (h.taken_takenOver sent now)
  | finalize source => exact h.of_effects effects h.fresh h.taken

/-- Marks for uploads keep what pending reports have read. -/
theorem Prompt.fresh_upload (h : p.Prompt) {source : SourceId} {state : Option Availability}
    {now : Nat} (heeding : p.Heeding (.upload source state now)) :
    ((p.supply source state).invalidate source now).yard.Fresh := by
  refine ⟨Library.distinct_put h.fresh.distinct source state, fun r' member pending => ?_⟩
  have marked : ((p.supply source state).invalidate source now).yard.reports =
      p.yard.reports.map (.mark (p.concerned source).contains Fate.touch) :=
    (List.map_append).symm
  rw [marked] at member
  obtain ⟨r, before, rfl⟩ := List.mem_map.mp member
  obtain ⟨finished, own, current⟩ := pending
  unfold Report.mark at own current
  dsimp only at own current
  by_cases concerned : (p.concerned source).contains r.job.source = true
  · rw [if_pos concerned] at current
    cases current
  · rw [if_neg concerned] at own current
    have holds : p.yard.library.Holds r.reading := h.fresh.held r before ⟨finished, own, current⟩
    have present : (p.record? r.job.source).isSome := by
      refine Option.isSome_iff_ne_none.mpr fun none => ?_
      have orphaned := (h.watched r.job.source).gone none r.toTicket (Yard.ticket_of_report before)
      rw [own] at orphaned
      cases orphaned
    by_cases changed : (p.yard.library.put source state).text? source = p.yard.library.text? source
    · exact ((agrees_announced changed).holds r.reading).mpr holds
    · refine (p.yard.library.holds_put (fun read => ?_) state).mpr holds
      have target := heeding changed r before ⟨finished, own, current⟩ read
      refine concerned (List.contains_iff_mem.mpr (List.mem_filter.mpr ⟨target, present⟩))

theorem Prompt.step (h : p.Prompt) (synced : p.Synced) {event : Event}
    (announced : p.Announced event) (heeding : p.Heeding event) : (p.step event).Prompt := by
  have desks : (∀ t, ((p.step event).desk t).Numbered) ∧ ∀ t, ((p.step event).desk t).Watched := by
    refine ⟨fun t => ?_, fun t => ?_⟩
    · rcases effects_step synced event t with effects | ⟨_, _, _, dropped⟩
      · exact effects.keep Desk.Numbered.effect (h.numbered t)
      · exact dropped ▸ (h.numbered t).drop
    · rcases effects_step synced event t with effects | ⟨_, _, _, dropped⟩
      · exact effects.keep Desk.Watched.effect (h.watched t)
      · exact dropped ▸ Desk.Watched.drop
  have of_yard (fresh : (p.step event).yard.Fresh)
      (taken : ∀ t k, (p.step event).taken t = some k → k.late = false) : (p.step event).Prompt :=
    ⟨fresh, desks.1, desks.2, taken⟩
  cases event with
  | supply source state =>
    have distinct := Library.distinct_put h.fresh.distinct source state
    exact of_yard (h.fresh.of_reports (agrees_announced announced) distinct
      fun r member pending => ⟨r, member, pending, rfl⟩) h.taken
  | upload source state now => exact of_yard (h.fresh_upload heeding) h.taken
  | ensure source now => exact of_yard h.fresh h.taken
  | request source now => exact of_yard h.fresh h.taken
  | invalidate source now => exact of_yard (h.fresh.mark _ fun _ => ⟨id, nofun⟩) h.taken
  | publish source program now => exact announced.elim
  | collect inUse =>
    refine of_yard (h.fresh.mark _ fun _ => ⟨nofun, id⟩) fun t k took => ?_
    simp only [Plant.step, Plant.collect] at took
    split at took
    · cases took
    · exact h.taken t k took
  | sync now interval => exact of_yard h.fresh h.taken
  | work errands => exact of_yard (h.fresh.performAll errands) h.taken
  | tick plan now => exact (stages_tick synced).keep (P := (·.Prompt)) Prompt.stage h

/-- When every change of a text is announced, and the compile of a source is done, then it has read
the text of the source and of all it depends on, and these texts are still at hand exactly if they
were when its result was taken over. They were if every upload reached the jobs that had read the
text. -/
theorem fresh_iff_prompt (settings : SchedulerSettings) (externals : List Signature)
    (events : List Event) (announced : Follows Announced (new settings externals) events)
    (source : SourceId) :
    let p := (new settings externals).run events
    ∀ r, p.record? source = some r → r.status = .done →
      ∃ k, p.taken source = some k ∧ p.Recorded source k.reading ∧
        (p.yard.library.Holds k.reading ↔ k.late = false) ∧
        (Follows Heeding (new settings externals) events → p.yard.library.Holds k.reading) := by
  intro p r found done
  obtain ⟨k, took, fresh, recorded⟩ :=
    backed_run settings externals announced source r found (.inr done)
  refine ⟨k, took, recorded, fresh, fun heeding => fresh.mpr ?_⟩
  have start : (new settings externals).Synced ∧ (new settings externals).Prompt :=
    ⟨rfl, ⟨List.nodup_nil, nofun⟩, fun _ => Desk.Numbered.empty, fun _ => Desk.Watched.empty, nofun⟩
  have prompt := run_keeps (P := fun p => p.Synced ∧ p.Prompt)
    (fun _ event kept rule =>
      ⟨step_synced event kept.1, kept.2.step kept.1 rule.1 rule.2⟩) start
    (follows_and announced heeding)
  exact prompt.2.taken source k took

/-- A compile that includes another source. -/
def includingRun : List Event :=
  [.upload (.ofPath "main.asm") (some (.available ".include \"lib.asm\"\n".toUTF8.toList)) 0,
    .upload (.ofPath "lib.asm") (some (.available [])) 0, .request (.ofPath "main.asm") 0,
    .tick .park 0, .work [.run 0, .send 0], .tick .park 1]

theorem included_text_is_fresh :
    Follows Announced (new {} []) includingRun ∧
      ∃ r k, ((new {} []).run includingRun).record? (.ofPath "main.asm") = some r ∧
        r.status = .done ∧ ((new {} []).run includingRun).taken (.ofPath "main.asm") = some k ∧
        ((new {} []).run includingRun).yard.library.Holds k.reading := by
  have announced : Follows Announced (new {} []) includingRun :=
    ⟨trivial, trivial, trivial, trivial, trivial, trivial, trivial⟩
  have heeding : Follows Heeding (new {} []) includingRun :=
    ⟨fun _ _ => nofun, fun _ _ => nofun, trivial, trivial, trivial, trivial, trivial⟩
  have done : (((new {} []).run includingRun).record? (.ofPath "main.asm")).map (·.status) =
      some .done := by
    decide +kernel
  obtain ⟨r, found, status⟩ := Option.map_eq_some_iff.mp done
  obtain ⟨k, took, _, _, holds⟩ :=
    fresh_iff_prompt {} [] includingRun announced (.ofPath "main.asm") r found status
  exact ⟨announced, r, k, found, status, took, holds heeding⟩

/-- The included source is changed after the job has read it. The first result of a source records
what it depends on, so the upload does not concern it yet. -/
def unnoticedRun : List Event :=
  [.upload (.ofPath "main.asm") (some (.available ".include \"lib.asm\"\n".toUTF8.toList)) 0,
    .upload (.ofPath "lib.asm") (some (.available [])) 0, .request (.ofPath "main.asm") 0,
    .tick .park 0, .work [.run 0], .upload (.ofPath "lib.asm") (some (.available [10])) 1,
    .work [.send 0], .tick .park 1]

theorem included_text_is_not_fresh :
    ¬∀ events, Follows Announced (new {} []) events → ∀ source r,
      ((new {} []).run events).record? source = some r → r.status = .done →
        ∃ k, ((new {} []).run events).taken source = some k ∧
          ((new {} []).run events).yard.library.Holds k.reading := by
  intro claim
  have announced : Follows Announced (new {} []) unnoticedRun :=
    ⟨trivial, trivial, trivial, trivial, trivial, trivial, trivial, trivial, trivial⟩
  have done : (((new {} []).run unnoticedRun).record? (.ofPath "main.asm")).map (·.status) =
      some .done := by
    decide +kernel
  have stale : (((new {} []).run unnoticedRun).taken (.ofPath "main.asm")).all fun k =>
      !decide (((new {} []).run unnoticedRun).yard.library.Holds k.reading) := by
    decide +kernel
  obtain ⟨r, found, status⟩ := Option.map_eq_some_iff.mp done
  obtain ⟨k, took, holds⟩ := claim unnoticedRun announced (.ofPath "main.asm") r found status
  rw [took] at stale
  simp [holds] at stale

end Plant

end RobotArena
