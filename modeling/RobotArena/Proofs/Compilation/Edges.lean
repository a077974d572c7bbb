import RobotArena.Proofs.Compilation.Freshness
import RobotArena.Proofs.Compilation.Reports
import RobotArena.Proofs.Compilation.Roster

/-!
# What a source depends on is what its last compile asked for

A result that ends a compile writes what the compile asked for; nothing else writes to the graph, but
that a record that goes takes its dependencies with it. So the graph holds, for each record, what the
compile that was committed to it last has asked for.
-/

namespace RobotArena

/-- The dependencies that a graph holds for a source are what the last compile asked for, if there is
one. -/
structure DependencyGraph.Follows (g : DependencyGraph) (t : SourceId) (last : Option Report) :
    Prop where
  asked : ∀ r, last = some r → ∃ dependencies, r.outcome.dependencies? = some dependencies ∧
    ∀ x, x ∈ g.dependencies t ↔ x ∈ dependencies ∧ x ≠ t
  idle : last = none → g.dependencies t = []

namespace Scheduler

variable {s : Scheduler} {t : SourceId} {last : Option Report}

/-- The last report for a source that is committed when reports are taken over, or else the one
before. -/
def latest (now : Nat) (t : SourceId) : List Report → Scheduler → Option Report → Option Report
  | [], _, last => last
  | r :: rest, s, last =>
    latest now t rest (s.commit now r.result).1
      (if r.job.source = t ∧ (s.commit now r.result).2 = .committed then some r else last)

/-- A report for a source without a record is not committed. -/
theorem latest_absent (now : Nat) (reports : List Report) (absent : t ∉ s.sources) :
    latest now t reports s last = last := by
  induction reports generalizing s with
  | nil => rfl
  | cons r rest ih =>
    have other : ¬(r.job.source = t ∧ (s.commit now r.result).2 = .committed) := by
      rintro ⟨same, committed⟩
      have expected := ((s.committed_iff now r.result).mp committed).1
      have unknown : s.registry.find? r.result.source = none := by
        rw [← Registry.not_mem_sources, show r.result.source = t from same]
        exact absent
      rw [Expects, unknown] at expected
      cases expected
    rw [latest, if_neg other]
    refine ih ?_
    rw [sources_commit]
    exact absent

/-- What is found of the reports that are committed is found of the last one. -/
theorem latest_keeps {P : Report → Prop} (now : Nat) (reports : List Report) (s : Scheduler)
    (all : ∀ r ∈ reports, r.job.source = t → P r) (before : ∀ r, last = some r → P r) (r : Report)
    (found : latest now t reports s last = some r) : P r := by
  induction reports generalizing s last with
  | nil => exact before r found
  | cons first rest ih =>
    refine ih _ (fun r member => all r (List.mem_cons_of_mem _ member)) ?_ found
    intro r found
    split at found
    · rename_i committed
      cases found
      exact all first List.mem_cons_self committed.1
    · exact before r found

theorem follows_commit (now : Nat) (r : Report) (h : s.graph.Follows t last) :
    (s.commit now r.result).1.graph.Follows t
      (if r.job.source = t ∧ (s.commit now r.result).2 = .committed then some r else last) := by
  by_cases committed : (s.commit now r.result).2 = .committed
  · obtain ⟨expected, finished⟩ := (s.committed_iff now r.result).mp committed
    obtain ⟨dependencies, outcome⟩ := Option.isSome_iff_exists.mp finished
    have graph : (s.commit now r.result).1.graph = s.graph.set r.job.source dependencies := by
      rw [graph_commit, outcome]
      exact if_pos expected
    rw [graph]
    by_cases same : r.job.source = t
    · rw [if_pos ⟨same, committed⟩]
      refine ⟨fun r' equal => ?_, nofun⟩
      cases equal
      rw [← same]
      exact ⟨dependencies, outcome, s.graph.mem_dependencies_set r.job.source dependencies⟩
    · have kept := s.graph.dependencies_set (Ne.symm same) dependencies
      rw [if_neg fun both => same both.1]
      exact ⟨by rw [kept]; exact h.asked, by rw [kept]; exact h.idle⟩
  · have graph : (s.commit now r.result).1.graph = s.graph := by
      rw [graph_commit]
      cases outcome : r.result.outcome.dependencies? with
      | none => rfl
      | some dependencies =>
        refine if_neg fun expected => committed ((s.committed_iff now r.result).mpr ⟨expected, ?_⟩)
        rw [outcome]
        rfl
    rw [graph, if_neg fun both => committed both.2]
    exact h

theorem follows_commitAll (now : Nat) (reports : List Report) (h : s.graph.Follows t last) :
    (commitAll now (reports.map Report.result) s).1.graph.Follows t
      (latest now t reports s last) := by
  induction reports generalizing s last with
  | nil => exact h
  | cons r rest ih =>
    rw [List.map_cons, commitAll_cons, latest]
    exact ih (follows_commit now r h)

end Scheduler

namespace DependencyGraph

theorem dependencies_remove (g : DependencyGraph) (source t : SourceId) :
    (g.remove source).dependencies t = if t = source then [] else g.dependencies t := by
  split
  · rename_i same
    subst same
    refine List.eq_nil_iff_forall_not_mem.mpr fun x member => ?_
    rw [mem_dependencies, mem_pairs_remove] at member
    exact member.1 rfl
  · rename_i other
    exact g.dependencies_set other []

theorem dependencies_removeAll (gone : List SourceId) (g : DependencyGraph) (t : SourceId) :
    (gone.foldl remove g).dependencies t = if t ∈ gone then [] else g.dependencies t := by
  induction gone generalizing g with
  | nil => rfl
  | cons source rest ih =>
    rw [List.foldl_cons, ih, dependencies_remove]
    by_cases later : t ∈ rest
    · rw [if_pos later, if_pos (List.mem_cons_of_mem _ later)]
    · by_cases same : t = source
      · rw [if_neg later, if_pos same, if_pos (List.mem_cons.mpr (.inl same))]
      · rw [if_neg later, if_neg same, if_neg (mt List.mem_cons.mp (not_or.mpr ⟨same, later⟩))]

end DependencyGraph

namespace Plant

variable {p : Plant} {t : SourceId} {last : Option Report} {externals : List Signature}

/-- The last compile that was committed to the record of a source, in a state and after an event;
none once the record is gone. -/
def latestAfter (p : Plant) (t : SourceId) (last : Option Report) (event : Event) : Option Report :=
  if ((p.step event).record? t).isSome then
    match event with
    | .tick plan now =>
      Scheduler.latest now t (p.opened plan now).yard.sent (p.opened plan now).scheduler last
    | _ => last
  else none

/-- The last compile that a run has committed to the record that a source has at its end. -/
def latest (p : Plant) (t : SourceId) (last : Option Report) : List Event → Option Report
  | [] => last
  | event :: rest => (p.step event).latest t (p.latestAfter t last event) rest

theorem graph_opened (plan : Plan) (now : Nat) (p : Plant) :
    (p.opened plan now).scheduler.graph = p.scheduler.graph := by
  have offered (sources : List SourceId) (p : Plant) :
      (sources.foldl (Plant.offer plan now) p).scheduler.graph = p.scheduler.graph := by
    induction sources generalizing p with
    | nil => rfl
    | cons source rest ih =>
      refine (ih _).trans ?_
      rcases p.offer_cases plan now source with same | ⟨_, _, _, refused | ⟨errands, accepted⟩⟩
      · rw [same]
      · rw [refused]
        rfl
      · rw [accepted]
        rfl
  show (p.handOut plan now).scheduler.graph = _
  rw [handOut_eq_foldl]
  exact offered _ p

theorem graph_tick (plan : Plan) (now : Nat) (synced : p.Synced) :
    (p.tick plan now).scheduler.graph =
      (Scheduler.commitAll now ((p.opened plan now).yard.sent.map Report.result)
        (p.opened plan now).scheduler).1.graph := by
  have inbox : (p.handOut plan now).scheduler.inbox =
      (p.opened plan now).yard.sent.map Report.result := handOut_synced plan now synced
  obtain ⟨committed, _, tick⟩ := tick_eq plan now synced
  have drained : (p.drained plan now).scheduler = _ := drained_scheduler synced
  rw [tick, foldl_finalize]
  show (Scheduler.finalizeAll committed (p.drained plan now).scheduler).graph = _
  rw [Scheduler.finalizeAll_eq, drained, inbox]

theorem sources_opened (plan : Plan) (now : Nat) (p : Plant) :
    (p.opened plan now).scheduler.sources = p.scheduler.sources :=
  Scheduler.sources_dispatches _ now p.scheduler.demanded p.scheduler p.yard 0

/-- The record of a source, what it depends on and the compile that was committed to it last agree. -/
structure Edged (externals : List Signature) (p : Plant) (t : SourceId) (last : Option Report) :
    Prop where
  recorded : p.record? t = none → last = none
  follows : p.scheduler.graph.Follows t last
  own : ∀ r, last = some r → r.job.source = t ∧ r.Honest externals

theorem Edged.unrecorded (h : Edged externals p t last) (absent : p.record? t = none) :
    p.scheduler.graph.dependencies t = [] :=
  h.follows.idle (h.recorded absent)

theorem Edged.forgotten (idle : p.scheduler.graph.dependencies t = []) : Edged externals p t none :=
  ⟨fun _ => rfl, ⟨nofun, fun _ => idle⟩, nofun⟩

/-- A change that leaves alone what a source depends on, and its record there if it was. -/
theorem Edged.carry (h : Edged externals p t last) {q : Plant}
    (same : q.scheduler.graph.dependencies t = p.scheduler.graph.dependencies t)
    (kept : (p.record? t).isSome → (q.record? t).isSome) :
    Edged externals q t (if (q.record? t).isSome then last else none) := by
  split
  · rename_i present
    refine ⟨fun absent => ?_, ⟨?_, ?_⟩, h.own⟩
    · rw [absent] at present
      cases present
    · rw [same]
      exact h.follows.asked
    · rw [same]
      exact h.follows.idle
  · rename_i absent
    have before : p.record? t = none := Option.not_isSome_iff_eq_none.mp (mt kept absent)
    exact .forgotten (same.trans (h.unrecorded before))

/-- An event that leaves the graph alone and drops no record. -/
theorem Edged.of_same (h : Edged externals p t last) {event : Event}
    (quiet : p.latestAfter t last event =
      if ((p.step event).record? t).isSome then last else none)
    (graph : (p.step event).scheduler.graph = p.scheduler.graph)
    (kept : (p.record? t).isSome → ((p.step event).record? t).isSome) :
    Edged externals (p.step event) t (p.latestAfter t last event) := by
  rw [quiet]
  exact h.carry (by rw [graph]) kept

theorem Edged.tick (h : Edged externals p t last) (synced : p.Synced)
    (honest : p.yard.Honest externals) (plan : Plan) (now : Nat) :
    Edged externals (p.step (.tick plan now)) t (p.latestAfter t last (.tick plan now)) := by
  have sources : (p.step (.tick plan now)).scheduler.sources = p.scheduler.sources :=
    p.scheduler.sources_tick (Yard.dispatcher plan) p.yard now
  have opened : (p.opened plan now).yard.Honest externals :=
    (stages_opened p).keep (P := fun p => p.yard.Honest externals) honest_stage honest
  have follows : (p.step (.tick plan now)).scheduler.graph.Follows t
      (Scheduler.latest now t (p.opened plan now).yard.sent (p.opened plan now).scheduler last) := by
    rw [step, graph_tick plan now synced]
    refine Scheduler.follows_commitAll now _ ?_
    rw [graph_opened]
    exact h.follows
  by_cases present : ((p.step (.tick plan now)).record? t).isSome
  · rw [latestAfter, if_pos present]
    refine ⟨fun absent => ?_, follows, fun r found => ?_⟩
    · rw [absent] at present
      cases present
    · refine Scheduler.latest_keeps now _ _ (fun r member same => ?_) h.own r found
      exact ⟨same, opened.reports r (List.mem_append_right _ member)⟩
  · -- a tick neither makes nor drops a record, so there was none to commit to
    have absent : t ∉ p.scheduler.sources := by
      rw [← sources, Registry.mem_sources]
      exact present
    have none : last = none := h.recorded (Registry.not_mem_sources.mp absent)
    rw [Scheduler.latest_absent now _ (by rw [sources_opened]; exact absent)] at follows
    rw [latestAfter, if_neg present, ← none]
    exact ⟨fun _ => none, follows, h.own⟩

theorem Edged.collect (h : Edged externals p t last) (inUse : SourceId → Bool) :
    Edged externals (p.step (.collect inUse)) t (p.latestAfter t last (.collect inUse)) := by
  have record : (p.step (.collect inUse)).record? t = if inUse t then p.record? t else none :=
    p.scheduler.registry.find?_collect inUse t
  have graph : (p.step (.collect inUse)).scheduler.graph.dependencies t =
      if t ∈ p.scheduler.registry.unused inUse then [] else p.scheduler.graph.dependencies t :=
    DependencyGraph.dependencies_removeAll _ _ t
  have latest : p.latestAfter t last (.collect inUse) =
      if ((p.step (.collect inUse)).record? t).isSome then last else none := rfl
  rw [latest]
  by_cases used : inUse t
  · have kept : t ∉ p.scheduler.registry.unused inUse := fun gone => by
      rw [(Registry.mem_unused.mp gone).2] at used
      cases used
    refine h.carry (graph.trans (if_neg kept)) fun present => ?_
    rw [record, if_pos used]
    exact present
  · rw [record, if_neg used]
    refine .forgotten (graph.trans ?_)
    split
    · rfl
    · rename_i kept
      -- a source that is not in use is kept only if it has no record
      refine h.unrecorded (Option.not_isSome_iff_eq_none.mp fun present => kept ?_)
      exact Registry.mem_unused.mpr ⟨present, Bool.eq_false_iff.mpr used⟩

theorem Edged.step (h : Edged externals p t last) (synced : p.Synced)
    (honest : p.yard.Honest externals) (event : Event) :
    Edged externals (p.step event) t (p.latestAfter t last event) := by
  have kept (same : ∀ source ∈ p.scheduler.sources, source ∈ (p.step event).scheduler.sources) :
      (p.record? t).isSome → ((p.step event).record? t).isSome := fun present =>
    Registry.mem_sources.mp (same t (Registry.mem_sources.mpr present))
  have invalidated (q : Plant) (source : SourceId) (now : Nat) :
      (q.invalidate source now).scheduler.graph = q.scheduler.graph ∧
        (q.invalidate source now).scheduler.sources = q.scheduler.sources := by
    rw [invalidate_scheduler]
    exact ⟨rfl, Registry.sources_foldl_reschedule _ _ now⟩
  cases event with
  | supply source state => exact h.of_same rfl rfl id
  | upload source state now =>
    obtain ⟨graph, sources⟩ := invalidated (p.supply source state) source now
    exact h.of_same rfl graph (kept fun s member => by rw [Plant.step, sources]; exact member)
  | ensure source now =>
    refine h.of_same rfl rfl (kept fun s member => ?_)
    exact (Registry.mem_sources_ensure _ source now s).mpr (.inr member)
  | request source now =>
    refine h.of_same rfl rfl (kept fun s member => ?_)
    show s ∈ (p.scheduler.request source now).sources
    rw [Scheduler.sources_request]
    exact (Registry.mem_sources_ensure _ source now s).mpr (.inr member)
  | invalidate source now =>
    obtain ⟨graph, sources⟩ := invalidated p source now
    exact h.of_same rfl graph (kept fun s member => by rw [Plant.step, sources]; exact member)
  | publish source program now =>
    refine h.of_same rfl rfl (kept fun s member => ?_)
    show s ∈ (p.scheduler.registry.publish source program now).sources
    rw [Registry.sources_publish]
    exact (Registry.mem_sources_ensure _ source now s).mpr (.inr member)
  | collect inUse => exact h.collect inUse
  | sync now interval =>
    refine h.of_same rfl rfl (kept fun s member => ?_)
    show s ∈ (p.scheduler.registry.sync now interval).2.sources
    rw [Registry.sources_sync]
    exact member
  | work errands => exact h.of_same rfl rfl id
  | tick plan now => exact h.tick synced honest plan now

theorem Edged.run (h : Edged externals p t last) (synced : p.Synced)
    (honest : p.yard.Honest externals) (events : List Event) :
    Edged externals (p.run events) t (p.latest t last events) := by
  induction events generalizing p last with
  | nil => exact h
  | cons event rest ih =>
    exact ih (h.step synced honest event) (step_synced event synced) (honest_step synced honest event)

/-- In every state, a source depends on what the compile that was committed last to its record has
asked for, itself apart, and once on each. It depends on nothing if there is no such compile, or no
record. -/
theorem edges_match_latest_compiles (settings : SchedulerSettings) (externals : List Signature)
    (events : List Event) :
    let start := new settings externals
    let p := start.run events
    (∀ t, (p.scheduler.graph.dependencies t).Nodup) ∧
    (∀ t r, start.latest t none events = some r →
      r.job.source = t ∧ (p.record? t).isSome ∧
        ∃ library, r.outcome = (r.job.outcome externals library).1 ∧
          ∀ x, x ∈ p.scheduler.graph.dependencies t ↔ x ∈ r.job.asked library ∧ x ≠ t) ∧
    (∀ t, start.latest t none events = none → p.scheduler.graph.dependencies t = []) ∧
    (∀ t, p.record? t = none → p.scheduler.graph.dependencies t = []) ∧
    ∀ source t, t ∈ p.scheduler.graph.dependents source → (p.record? t).isSome := by
  intro start p
  have first (t : SourceId) : Edged externals start t none :=
    ⟨fun _ => rfl, ⟨nofun, fun _ => rfl⟩, nofun⟩
  have edged (t : SourceId) : Edged externals p t (start.latest t none events) :=
    (first t).run rfl (honest_run settings externals []) events
  refine ⟨p.scheduler.graph.nodup_dependencies, fun t r found => ?_, fun t => (edged t).follows.idle,
    fun t => (edged t).unrecorded, fun source t dependent => ?_⟩
  · obtain ⟨own, library, outcome⟩ := (edged t).own r found
    obtain ⟨dependencies, finished, asked⟩ := (edged t).follows.asked r found
    rw [outcome] at finished
    refine ⟨own, ?_, library, outcome, fun x => ?_⟩
    · refine Option.isSome_iff_ne_none.mpr fun absent => ?_
      rw [(edged t).recorded absent] at found
      cases found
    · rw [asked, Job.asked_of_finished finished]
  · obtain ⟨_, chain⟩ := DependencyGraph.mem_dependents_iff.mp dependent
    obtain ⟨x, reads, _⟩ := Relation.TransGen.head'_iff.mp chain
    refine Option.isSome_iff_ne_none.mpr fun absent => ?_
    have member := (p.scheduler.graph.mem_dependencies t x).mpr reads
    rw [(edged t).unrecorded absent] at member
    cases member

theorem included_source_was_asked_for :
    ∃ r library, (new {} []).latest (.ofPath "main.asm") none includingRun = some r ∧
      r.outcome = (r.job.outcome [] library).1 ∧ .ofPath "lib.asm" ∈ r.job.asked library := by
  have committed : ((new {} []).latest (.ofPath "main.asm") none includingRun).isSome := by
    decide +kernel
  have depends : .ofPath "lib.asm" ∈
      ((new {} []).run includingRun).scheduler.graph.dependencies (.ofPath "main.asm") := by
    decide +kernel
  obtain ⟨r, found⟩ := Option.isSome_iff_exists.mp committed
  obtain ⟨_, _, library, outcome, asked⟩ :=
    (edges_match_latest_compiles {} [] includingRun).2.1 (.ofPath "main.asm") r found
  exact ⟨r, library, found, outcome, ((asked _).mp depends).1⟩

end Plant

end RobotArena
