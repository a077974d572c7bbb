import RobotArena.Proofs.Compilation.Desk

/-!
# Generations tell old jobs from new ones

A generation is handed out once, also across records of one source that come and go. So a job that
carries the generation of its source's record was handed out by this very record, and no upload and
no published program has touched the record since. The main statement is that a result without these
properties takes no effect.
-/

namespace RobotArena

/-- Generations below the next one are in use, and jobs with the generation of the record are its
own and untouched. -/
structure Desk.Numbered (d : Desk) : Prop where
  positive : 0 < d.next
  given : ∀ t ∈ d.tickets, 0 < t.job.generation ∧ t.job.generation < d.next
  held : ∀ r, d.record = some r →
    r.generation < d.next ∧ (r.status ≠ .none → 0 < r.generation)
  current : ∀ r, d.record = some r → ∀ t ∈ d.tickets, t.job.generation = r.generation →
    t.fate.orphaned = false ∧ t.fate.touched = false

namespace Desk.Numbered

variable {n n' : Nat} {record : Option CompilationRecord} {r r' : CompilationRecord} {t : Ticket}
  {out out' : List Ticket}

theorem empty : Numbered ⟨1, none, []⟩ :=
  ⟨Nat.one_pos, by simp, by simp, by simp⟩

/-- Jobs that go and marks that neither orphan nor touch do not matter. -/
theorem of_tickets (h : Numbered ⟨n, record, out⟩)
    (old : ∀ t' ∈ out', ∃ t ∈ out, t'.job = t.job ∧ t'.fate.orphaned = t.fate.orphaned ∧
      t'.fate.touched = t.fate.touched) : Numbered ⟨n, record, out'⟩ := by
  refine ⟨h.positive, ?_, h.held, ?_⟩
  · intro t' member
    obtain ⟨t, before, job, _⟩ := old t' member
    rw [job]
    exact h.given t before
  · intro r found t' member same
    obtain ⟨t, before, job, orphaned, touched⟩ := old t' member
    rw [orphaned, touched]
    exact h.current r found t before (job ▸ same)

/-- A record that keeps its generation is still numbered. -/
theorem of_record (h : Numbered ⟨n, some r, out⟩) (same : r'.generation = r.generation)
    (positive : r'.status ≠ .none → 0 < r.generation) : Numbered ⟨n, some r', out⟩ := by
  refine ⟨h.positive, h.given, ?_, ?_⟩
  · rintro _ ⟨⟩
    rw [same]
    exact ⟨(h.held r rfl).1, positive⟩
  · rintro _ ⟨⟩ t member equal
    exact h.current r rfl t member (equal.trans same)

/-- A record with a generation that was never handed out has no job of its own out. -/
theorem of_fresh (h : Numbered ⟨n, record, out⟩) (fresh : r'.generation = n)
    (jobs : ∀ t' ∈ out', ∃ t ∈ out, t'.job = t.job) : Numbered ⟨n + 1, some r', out'⟩ := by
  have given : ∀ t' ∈ out', 0 < t'.job.generation ∧ t'.job.generation < n := by
    intro t' member
    obtain ⟨t, before, job⟩ := jobs t' member
    rw [job]
    exact h.given t before
  refine ⟨Nat.succ_pos _, ?_, ?_, ?_⟩
  · exact fun t member => ⟨(given t member).1, Nat.lt_succ_of_lt (given t member).2⟩
  · rintro _ ⟨⟩
    rw [fresh]
    exact ⟨Nat.lt_succ_self _, fun _ => h.positive⟩
  · rintro _ ⟨⟩ t member equal
    have below := (given t member).2
    omega

theorem without_record (h : Numbered ⟨n, record, out⟩)
    (jobs : ∀ t' ∈ out', ∃ t ∈ out, t'.job = t.job) : Numbered ⟨n, none, out'⟩ := by
  refine ⟨h.positive, ?_, by simp, by simp⟩
  intro t' member
  obtain ⟨t, before, job⟩ := jobs t' member
  rw [job]
  exact h.given t before

theorem old_changed (change : Fate → Fate) :
    ∀ t' ∈ out.map (Ticket.change change), ∃ t ∈ out, t'.job = t.job := by
  intro t' member
  obtain ⟨t, before, rfl⟩ := List.mem_map.mp member
  exact ⟨t, before, rfl⟩

theorem old_overtaken :
    ∀ t' ∈ out.map (Ticket.change .overtake), ∃ s ∈ t :: out, t'.job = s.job ∧
      t'.fate.orphaned = s.fate.orphaned ∧ t'.fate.touched = s.fate.touched := by
  intro t' member
  obtain ⟨s, before, rfl⟩ := List.mem_map.mp member
  exact ⟨s, List.mem_cons_of_mem _ before, rfl, rfl, rfl⟩

theorem effect {d d' : Desk} (h : d.Numbered) (effect : Effect d d') : d'.Numbered := by
  cases effect with
  | @quiet n n' record out out' later same =>
    have moved : Numbered ⟨n, record, out'⟩ :=
      h.of_tickets fun t member => ⟨t, same.mem_iff.mpr member, rfl, rfl, rfl⟩
    refine ⟨Nat.lt_of_lt_of_le moved.positive later, ?_, ?_, moved.current⟩
    · exact fun t member =>
        ⟨(moved.given t member).1, Nat.lt_of_lt_of_le (moved.given t member).2 later⟩
    · exact fun r found =>
        ⟨Nat.lt_of_lt_of_le (moved.held r found).1 later, (moved.held r found).2⟩
  | told now => exact h.of_record rfl (h.held _ rfl).2
  | created source now =>
    refine ⟨h.positive, h.given, ?_, ?_⟩
    · rintro _ ⟨⟩
      exact ⟨h.positive, fun busy => absurd rfl busy⟩
    · rintro _ ⟨⟩ t member equal
      have positive : 0 < t.job.generation := (h.given t member).1
      have zero : t.job.generation = 0 := equal
      omega
  | rescheduled now marks =>
    refine h.of_fresh (by rw [CompilationRecord.reschedule_eq]) ?_
    rcases marks with rfl | rfl
    · exact fun t member => ⟨t, member, rfl⟩
    · exact old_changed _
  | published version program =>
    exact h.of_fresh (by rw [CompilationRecord.finish_eq]) (old_changed _)
  | @accepted n r out now source due =>
    obtain ⟨below, positive⟩ := h.held r rfl
    have positive : 0 < r.generation := positive (by simp [((r.isDue_iff now).mp due).1])
    have started : Numbered ⟨n, some r.start, out⟩ :=
      h.of_record (by rw [CompilationRecord.start_eq]) fun _ => positive
    refine ⟨h.positive, ?_, started.held, ?_⟩
    · intro t member
      rcases List.mem_cons.mp member with rfl | old
      · exact ⟨positive, below⟩
      · exact h.given t old
    · intro r' found t member equal
      rcases List.mem_cons.mp member with rfl | old
      · exact ⟨rfl, rfl⟩
      · exact started.current r' found t old equal
  | @refused n r out now later due =>
    have positive : 0 < r.generation :=
      (h.held r rfl).2 (by simp [((r.isDue_iff now).mp due).1])
    exact h.of_record (by rw [CompilationRecord.postpone_eq, CompilationRecord.start_eq])
      fun _ => positive
  | dropped =>
    refine h.without_record fun t member => ?_
    obtain ⟨s, before, job, _⟩ := old_overtaken t member
    exact ⟨s, before, job⟩
  | @discarded n r t out stale =>
    have landed : Numbered ⟨n, some { r with inFlight := false }, t :: out⟩ :=
      h.of_record rfl (h.held r rfl).2
    exact landed.of_tickets old_overtaken
  | @committed n r t out current version program diagnostics =>
    have positive : 0 < r.generation := current ▸ (h.given t List.mem_cons_self).1
    exact (h.of_record (by rw [CompilationRecord.finish_eq]) fun _ => positive).of_tickets
      old_overtaken
  | @delayed n r t out current progress later =>
    have positive : 0 < r.generation := current ▸ (h.given t List.mem_cons_self).1
    have kept : (({ r with inFlight := false }.setProgress progress).schedule later).generation =
        r.generation := by
      rw [CompilationRecord.schedule_eq, CompilationRecord.setProgress_eq]
    exact (h.of_record kept fun _ => positive).of_tickets old_overtaken
  | @finalized n r out compiled =>
    exact h.of_record (by rw [CompilationRecord.setStatus_eq]) fun _ =>
      (h.held r rfl).2 (by simp [compiled])

theorem drop {d : Desk} (h : d.Numbered) : d.drop.Numbered :=
  h.without_record (old_changed _)

end Desk.Numbered

/-- A record as it is once no job of it is out. -/
def CompilationRecord.landed (r : CompilationRecord) : CompilationRecord :=
  { r with inFlight := false }

theorem Registry.modify_absent {g : Registry} {source : SourceId} (absent : g.find? source = none)
    (change : CompilationRecord → CompilationRecord) : g.modify source change = g := by
  have others : ∀ r ∈ g.records, r.source ≠ source := by
    simpa [find?, List.find?_eq_none] using absent
  unfold modify
  congr 1
  refine (List.map_congr_left fun r member => ?_).trans (List.map_id _)
  exact if_neg (others r member)

namespace Scheduler

/-! ### Results with an old generation -/

/-- Whether a result answers the latest request for its source. -/
def Expects (s : Scheduler) (result : JobResult) : Prop :=
  (s.registry.find? result.source).map (·.generation) = some result.generation

theorem commit_unexpected {s : Scheduler} {result : JobResult} (now : Nat)
    (unexpected : ¬s.Expects result) :
    s.commit now result = (s.modify result.source .landed, .discarded) := by
  unfold commit
  cases found : s.registry.find? result.source with
  | none =>
    have same : s.modify result.source .landed = s := by
      rw [modify, Registry.modify_absent found]
    rw [same]
  | some r =>
    have stale : r.generation ≠ result.generation := by
      simpa [Expects, found] using unexpected
    exact if_pos stale

/-- The results that end a compile are the finished ones that are expected. -/
theorem committed_iff (s : Scheduler) (now : Nat) (result : JobResult) :
    (s.commit now result).2 = .committed ↔
      s.Expects result ∧ result.outcome.dependencies?.isSome := by
  by_cases expected : s.Expects result
  · obtain ⟨r, found, generation⟩ := Option.map_eq_some_iff.mp expected
    have current : ¬r.generation ≠ result.generation := Decidable.not_not.mpr generation
    unfold commit
    rw [found]
    dsimp only
    rw [if_neg current]
    cases result.outcome <;> simp [JobOutcome.dependencies?, expected]
  · rw [commit_unexpected now expected]
    refine ⟨fun committed => ?_, fun both => absurd both.1 expected⟩
    cases committed

theorem generation_commit (s : Scheduler) (now : Nat) (result : JobResult) (t : SourceId) :
    ((s.commit now result).1.registry.find? t).map (·.generation) =
      (s.registry.find? t).map (·.generation) := by
  have settled : ∀ r, (s.settled now result r).generation = r.generation := by
    intro r
    unfold settled
    split
    · rfl
    · split
      · rw [CompilationRecord.finish_eq]
      · rw [CompilationRecord.finish_eq]
      · rw [CompilationRecord.schedule_eq, CompilationRecord.setProgress_eq]
  rw [find?_commit]
  split
  · rw [Option.map_map]
    exact Option.map_congr fun r _ => settled r
  · rfl

theorem generation_commitAll (now : Nat) (results : List JobResult) (s : Scheduler) (t : SourceId) :
    ((commitAll now results s).1.registry.find? t).map (·.generation) =
      (s.registry.find? t).map (·.generation) := by
  induction results generalizing s with
  | nil => rfl
  | cons result rest ih => rw [commitAll_cons, ih, generation_commit]

/-- A result for another source, or one that is not expected, leaves the record of a source and what
it depends on alone. -/
theorem commit_spares {s : Scheduler} {t : SourceId} {result : JobResult} (now : Nat)
    (unexpected : result.source = t → ¬s.Expects result) :
    ((s.commit now result).1.registry.find? t).map (·.landed) =
        (s.registry.find? t).map (·.landed) ∧
      (s.commit now result).1.graph.dependencies t = s.graph.dependencies t := by
  by_cases same : result.source = t
  · have landed := s.find?_modify result.source t .landed fun _ => rfl
    rw [commit_unexpected now (unexpected same)]
    refine ⟨?_, rfl⟩
    dsimp only
    rw [landed]
    split
    · rw [Option.map_map]
      rfl
    · rfl
  · refine ⟨by rw [find?_commit, if_neg (Ne.symm same)], ?_⟩
    rw [graph_commit]
    split
    · split
      · exact DependencyGraph.dependencies_set _ (Ne.symm same) _
      · rfl
    · rfl

/-- If no result answers the latest request for a source, taking them over leaves its record and
what it depends on alone. -/
theorem commitAll_unexpected (now : Nat) {t : SourceId} (results : List JobResult) (s : Scheduler)
    (unexpected : ∀ result ∈ results, result.source = t → ¬s.Expects result) :
    ((commitAll now results s).1.registry.find? t).map (·.landed) =
        (s.registry.find? t).map (·.landed) ∧
      (commitAll now results s).1.graph.dependencies t = s.graph.dependencies t ∧
      t ∉ (commitAll now results s).2.1 := by
  induction results generalizing s with
  | nil => exact ⟨rfl, rfl, List.not_mem_nil⟩
  | cons result rest ih =>
    have first := unexpected result List.mem_cons_self
    have later : ∀ other ∈ rest, other.source = t → ¬(s.commit now result).1.Expects other := by
      intro other member same
      rw [Expects, generation_commit]
      exact unexpected other (List.mem_cons_of_mem _ member) same
    obtain ⟨record, graph, spared⟩ := ih _ later
    obtain ⟨kept, edges⟩ := commit_spares now first
    rw [commitAll_cons, record, graph, mem_commitAll_cons]
    refine ⟨kept, edges, not_or.mpr ⟨fun ⟨same, committed⟩ => ?_, spared⟩⟩
    exact first same.symm ((s.committed_iff now result).mp committed).1

theorem find?_finalizeAll {t : SourceId} (sources : List SourceId) (s : Scheduler)
    (other : t ∉ sources) : (finalizeAll sources s).registry.find? t = s.registry.find? t := by
  induction sources generalizing s with
  | nil => rfl
  | cons source rest ih =>
    obtain ⟨first, later⟩ := not_or.mp (mt List.mem_cons.mpr other)
    rw [finalizeAll_cons, ih _ later, find?_finalize, if_neg first]

end Scheduler

namespace Plant

theorem numbered_run (settings : SchedulerSettings) (externals : List Signature)
    (events : List Event) (t : SourceId) :
    (((new settings externals).run events).desk t).Numbered :=
  desk_run Desk.Numbered.effect Desk.Numbered.drop Desk.Numbered.empty settings externals events t

/-- At the time results are taken over, an expected one comes from a job that its record itself has
handed out and that neither an upload nor a published program has outdated. -/
theorem current_of_expected {p : Plant} {plan : Plan} {now : Nat} {r : Report}
    (numbered : (p.desk r.job.source).Numbered) (sent : r ∈ (p.opened plan now).yard.sent)
    (expected : (p.opened plan now).scheduler.Expects r.result) :
    r.fate.orphaned = false ∧ r.fate.touched = false := by
  have opened : ((p.opened plan now).desk r.job.source).Numbered :=
    (effects_stages _ (stages_opened p)).keep Desk.Numbered.effect numbered
  obtain ⟨record, found, generation⟩ := Option.map_eq_some_iff.mp expected
  have out := Yard.ticket_of_report (List.mem_append_right (p.opened plan now).yard.finished sent)
  exact opened.current record found r.toTicket out generation.symm

/-- If no result that has come in for a source is expected, a tick leaves its record and what it
depends on as they are when the jobs are handed out. -/
theorem tick_unexpected {p : Plant} {plan : Plan} {now : Nat} {t : SourceId} (synced : p.Synced)
    (unexpected : ∀ r ∈ (p.opened plan now).yard.sent, r.job.source = t →
      ¬(p.opened plan now).scheduler.Expects r.result) :
    ((p.tick plan now).record? t).map (·.landed) =
        ((p.opened plan now).record? t).map (·.landed) ∧
      (p.tick plan now).scheduler.graph.dependencies t =
        (p.opened plan now).scheduler.graph.dependencies t := by
  have inbox : (p.handOut plan now).scheduler.inbox =
      (p.opened plan now).yard.sent.map Report.result := handOut_synced plan now synced
  have unexpected : ∀ result ∈ (p.opened plan now).yard.sent.map Report.result,
      result.source = t → ¬(p.opened plan now).scheduler.Expects result := by
    intro result member same
    obtain ⟨r, sent, rfl⟩ := List.mem_map.mp member
    exact unexpected r sent same
  obtain ⟨record, graph, committed⟩ := Scheduler.commitAll_unexpected now _ _ unexpected
  have drained : (p.drained plan now).scheduler = _ := drained_scheduler synced
  obtain ⟨sources, rfl, tick⟩ := tick_eq plan now synced
  rw [inbox] at drained tick
  have ended : (p.tick plan now).record? t = (p.drained plan now).record? t ∧
      (p.tick plan now).scheduler.graph = (p.drained plan now).scheduler.graph := by
    rw [tick, foldl_finalize]
    exact ⟨Scheduler.find?_finalizeAll _ _ committed,
      congrArg (·.graph) (Scheduler.finalizeAll_eq _ _)⟩
  rw [ended.1, ended.2, record?, drained]
  exact ⟨record, graph⟩

/-- Only the result of a job that the record itself has handed out, and that neither an upload nor
a published program has touched since, takes effect: any other leaves the scheduler as it is, but
for noting that no job is out. So a tick changes a record or what it depends on, after the jobs are
handed out, only if such a result has come in for it. -/
theorem results_take_effect_only_if_current (settings : SchedulerSettings)
    (externals : List Signature) (events : List Event) (plan : Plan) (now : Nat) :
    let p := (new settings externals).run events
    let q := p.opened plan now
    (p.handOut plan now).scheduler.inbox = q.yard.sent.map Report.result ∧
    (∀ before r after, q.yard.sent = before ++ r :: after →
      let s := (Scheduler.commitAll now (before.map Report.result) q.scheduler).1
      s.commit now r.result ≠ (s.modify r.job.source .landed, .discarded) →
      r.fate.orphaned = false ∧ r.fate.touched = false) ∧
    ∀ t,
      ((p.tick plan now).record? t).map (·.landed) ≠ (q.record? t).map (·.landed) ∨
        (p.tick plan now).scheduler.graph.dependencies t ≠ q.scheduler.graph.dependencies t →
      ∃ r ∈ q.yard.sent, r.job.source = t ∧ r.fate.orphaned = false ∧ r.fate.touched = false := by
  intro p q
  have synced : p.Synced := run_synced settings externals events
  have inbox : (p.handOut plan now).scheduler.inbox = q.yard.sent.map Report.result :=
    handOut_synced plan now synced
  refine ⟨inbox, ?_, ?_⟩
  · intro before r after sent s effect
    have expected : s.Expects r.result := by
      by_contra unexpected
      exact effect (Scheduler.commit_unexpected now unexpected)
    -- taking over the results before it has changed no generation
    rw [Scheduler.Expects, Scheduler.generation_commitAll] at expected
    exact current_of_expected (numbered_run settings externals events _)
      (by rw [sent]; exact List.mem_append_right _ List.mem_cons_self) expected
  · intro t changed
    by_contra none
    have unexpected : ∀ r ∈ q.yard.sent, r.job.source = t → ¬q.scheduler.Expects r.result := by
      intro r sent same expected
      exact none ⟨r, sent, same,
        current_of_expected (numbered_run settings externals events _) sent expected⟩
    obtain ⟨record, graph⟩ := tick_unexpected synced unexpected
    rcases changed with changed | changed
    · exact changed record
    · exact changed graph

/-! A record that is dropped and asked for again while its first job is out: the reports of both
jobs have come in, and only the second one takes effect. -/

def revived : Plant :=
  (new {} []).run
    [.request (.ofPath "main.asm") 0, .tick .park 0, .collect fun _ => false,
      .request (.ofPath "main.asm") 1, .tick .park 1, .work [.run 0, .run 0, .send 0, .send 0]]

def orphanReport : Report :=
  ({ job := ⟨.ofPath "main.asm", 1⟩, fate := { orphaned := true } } : Ticket).run [] {}

def ownReport : Report :=
  ({ job := ⟨.ofPath "main.asm", 2⟩ } : Ticket).run [] (({} : Library).fetch (.ofPath "main.asm"))

def orphanTakenOver : Scheduler :=
  (Scheduler.commitAll 2 ([orphanReport].map Report.result) (revived.opened .park 2).scheduler).1

theorem own_result_takes_effect :
    (revived.opened .park 2).yard.sent = [orphanReport] ++ ownReport :: [] ∧
      orphanTakenOver.commit 2 ownReport.result ≠
        (orphanTakenOver.modify ownReport.job.source .landed, .discarded) ∧
      ownReport.fate.orphaned = false ∧ ownReport.fate.touched = false := by
  have sent : (revived.opened .park 2).yard.sent = [orphanReport] ++ ownReport :: [] := rfl
  have status : ((orphanTakenOver.commit 2 ownReport.result).1.registry.find?
      (.ofPath "main.asm")).map (·.status) ≠
        ((orphanTakenOver.modify ownReport.job.source .landed).registry.find?
          (.ofPath "main.asm")).map (·.status) := by
    decide
  have effect : orphanTakenOver.commit 2 ownReport.result ≠
      (orphanTakenOver.modify ownReport.job.source .landed, .discarded) := by
    intro same
    rw [same] at status
    exact status rfl
  exact ⟨sent, effect,
    (results_take_effect_only_if_current {} [] _ .park 2).2.1 [orphanReport] ownReport [] sent effect⟩

end Plant

end RobotArena
