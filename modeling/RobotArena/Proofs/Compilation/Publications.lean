import RobotArena.Proofs.Compilation.Docket
import RobotArena.Proofs.Compilation.Edges
import RobotArena.Proofs.Compilation.Spared

/-!
# Published programs

A program that is published for a source can be run at once, and as long as nothing concerns the
source. What the source depended on before is still recorded, though, so an upload may concern it on
account of a compile that the program has replaced. The main statement is that this is the only way:
without recorded dependencies, nothing that happens elsewhere takes the program away.
-/

namespace RobotArena

namespace Plant

variable {p : Plant} {event : Event} {t : SourceId} {v now : Nat} {program : Program}

/-- Whether the record of a source is done and has a program to run. -/
def Serves (p : Plant) (t : SourceId) (v : Nat) (program : Program) : Prop :=
  ∃ r, p.record? t = some r ∧ r.status = .done ∧ r.runnable? = some (v, program)

/-- Whether an event is about other sources only, or makes use of a source. -/
def Event.LeavesAlone (t : SourceId) : Event → Prop
  | .upload source _ _ => source ≠ t
  | .invalidate source _ => source ≠ t
  | .publish source _ _ => source ≠ t
  | .collect inUse => inUse t = true
  | _ => True

/-- Whether an event publishes a program for a source. -/
def Event.Publishes (t : SourceId) : Event → Prop
  | .publish source _ _ => source = t
  | _ => False

theorem Event.LeavesAlone.not_publishes (leaves : event.LeavesAlone t) : ¬event.Publishes t := by
  cases event with
  | publish source program now => exact leaves
  | _ => exact id

theorem serves_iff (consistent : p.scheduler.registry.Consistent) :
    p.Serves t v program ↔ p.status? t = some .done ∧ p.title? t = some (v, some program) := by
  constructor
  · rintro ⟨r, found, done, runnable⟩
    refine ⟨status?_eq_some.mpr ⟨r, found, done⟩, ?_⟩
    unfold CompilationRecord.runnable? at runnable
    split at runnable
    · obtain ⟨held, some, same⟩ := Option.map_eq_some_iff.mp runnable
      rw [title?_of_record? found, some]
      cases same
      rfl
    · cases runnable
  · rintro ⟨done, title⟩
    obtain ⟨r, found, status⟩ := status?_eq_some.mp done
    obtain ⟨r', found', version, held⟩ := record?_of_title? title
    cases found.symm.trans found'
    have success : r.success = true := by
      rw [(consistent.records t r found).success, held]
      rfl
    refine ⟨r, found, status, ?_⟩
    rw [CompilationRecord.runnable?, if_pos ⟨status, success⟩, held, version]
    rfl

theorem serves_publish (p : Plant) (t : SourceId) (program : Program) (now : Nat) :
    (p.step (.publish t program now)).Serves t p.nextVersion program := by
  have record := p.scheduler.registry.find?_publish t t program now
  rw [if_pos rfl, Registry.find?_ensure, if_pos rfl, Option.map_some, Registry.nextVersion_ensure,
    CompilationRecord.finish_eq] at record
  exact ⟨_, record, rfl, rfl⟩

/-- No result is taken over for a record that is done. -/
theorem not_supplied_of_done (exclusive : (p.desk t).Exclusive) (done : p.status? t = some .done)
    (other : ¬event.Publishes t) : ¬p.Supplies t event := by
  cases event with
  | publish source program now => exact other
  | tick plan now =>
    rintro ⟨r, sent, own, answers⟩
    exact unexpected_of_done exclusive done sent own answers.1
  | _ => exact id

theorem serves_spared (settings : SchedulerSettings) (externals : List Signature)
    (events : List Event) (serves : ((new settings externals).run events).Serves t v program)
    (spared : ((new settings externals).run events).Spares t event) (other : ¬event.Publishes t) :
    (((new settings externals).run events).step event).Serves t v program := by
  let start := new settings externals
  have synced : (start.run events).Synced := run_synced settings externals events
  have exclusive : ∀ u, ((start.run events).desk u).Exclusive :=
    exclusive_run settings externals events
  have next : (start.run events).step event = start.run (events ++ [event]) :=
    (run_append start events [event]).symm
  obtain ⟨done, title⟩ :=
    (serves_iff (orderly_run settings externals events).consistent).mp serves
  have stays : ((start.run events).step event).status? t = some .done :=
    done_spared synced (ended_run settings externals events) (exclusive t) done spared
  have idle : ¬(start.run events).Supplies t event :=
    not_supplied_of_done (exclusive t) done other
  have kept : ((start.run events).step event).title? t = some (v, some program) := by
    rcases title?_step synced exclusive event t with
      ⟨supplies, _⟩ | ⟨_, same | ⟨absent, _⟩ | gone⟩
    · exact absurd supplies idle
    · exact same.trans title
    · rw [absent] at title
      cases title
    · obtain ⟨r, found, _⟩ := status?_eq_some.mp stays
      rw [title?_of_record? found] at gone
      cases gone
  show ((start.run events).step event).Serves t v program
  rw [next] at stays kept ⊢
  exact (serves_iff (orderly_run settings externals _).consistent).mpr ⟨stays, kept⟩

/-! ### Sources that depend on nothing -/

theorem spares_of_independent (none : p.scheduler.graph.dependencies t = [])
    (leaves : event.LeavesAlone t) : p.Spares t event := by
  have apart (source : SourceId) (other : source ≠ t) : ¬p.Concerns source t := by
    rintro (same | path)
    · exact other same.symm
    · obtain ⟨read, reads, _⟩ := Relation.TransGen.head'_iff.mp path
      have listed := (p.scheduler.graph.mem_dependencies t read).mpr reads
      rw [none] at listed
      cases listed
  cases event with
  | upload source state now => exact apart source leaves
  | invalidate source now => exact apart source leaves
  | collect inUse => exact leaves
  | _ => trivial

/-- A source whose compile is done gets no dependencies. -/
theorem independent_step (synced : p.Synced) (exclusive : (p.desk t).Exclusive)
    (done : p.status? t = some .done) (none : p.scheduler.graph.dependencies t = [])
    (event : Event) : (p.step event).scheduler.graph.dependencies t = [] := by
  cases event with
  | supply source state => exact none
  | upload source state now =>
    rw [step, invalidate_scheduler]
    exact none
  | ensure source now => exact none
  | request source now => exact none
  | invalidate source now =>
    rw [step, invalidate_scheduler]
    exact none
  | publish source program now => exact none
  | collect inUse =>
    have removed := DependencyGraph.dependencies_removeAll
      (p.scheduler.registry.unused inUse) p.scheduler.graph t
    rw [none, ite_self] at removed
    exact removed
  | sync now interval => exact none
  | work errands => exact none
  | tick plan now =>
    have unexpected : ∀ r ∈ (p.opened plan now).yard.sent, r.job.source = t →
        ¬(p.opened plan now).scheduler.Expects r.result :=
      fun r sent own => unexpected_of_done exclusive done sent own
    have kept := (tick_unexpected synced unexpected).2
    rw [graph_opened, none] at kept
    exact kept

/-- A source with a dependency is rescheduled when that one is uploaded. -/
theorem not_serves_of_dependency {read : SourceId} (dependency : read ∈ p.scheduler.graph.dependencies t)
    (now : Nat) : ¬(p.step (.invalidate read now)).Serves t v program := by
  rintro ⟨r, found, done, _⟩
  have reads : p.scheduler.graph.Reads t read :=
    (p.scheduler.graph.mem_dependencies t read).mp dependency
  have after := (status?_invalidate p read now t).1 (.inr (.single reads))
  have status : (p.invalidate read now).status? t = some .done :=
    status?_eq_some.mpr ⟨r, found, done⟩
  rw [status] at after
  obtain ⟨_, _, same⟩ := Option.map_eq_some_iff.mp after.symm
  cases same

theorem ne_of_dependency {g : DependencyGraph} {read : SourceId} (dependency : read ∈ g.dependencies t) :
    read ≠ t := by
  rintro rfl
  obtain ⟨e, edge, first, last⟩ :=
    DependencyGraph.mem_pairs.mp ((g.mem_dependencies read read).mp dependency)
  exact g.sound.loopless e edge (g.sound.unique first last)

/-- In every run, a program that is published can be run at once, and for as long as no upload
concerns its source and its record is kept. Nothing that is about other sources can take it away
exactly if no dependencies were recorded for its source when it was published. -/
theorem published_program_stays_iff (settings : SchedulerSettings) (externals : List Signature)
    (events : List Event) (t : SourceId) (program : Program) (now : Nat) :
    let p := (new settings externals).run events
    let q := p.step (.publish t program now)
    q.Serves t p.nextVersion program ∧
    (∀ later, Follows (fun p event => p.Spares t event ∧ ¬event.Publishes t) q later →
      (q.run later).Serves t p.nextVersion program) ∧
    ((∀ later : List Event, (∀ event ∈ later, event.LeavesAlone t) →
        (q.run later).Serves t p.nextVersion program) ↔
      p.scheduler.graph.dependencies t = []) := by
  intro p q
  let start := new settings externals
  let published := events ++ [.publish t program now]
  have reached : start.run published = q := run_append start events _
  have served : q.Serves t p.nextVersion program := p.serves_publish t program now
  refine ⟨served, fun later spared => ?_, fun stays => ?_, fun none later alone => ?_⟩
  · rw [← reached] at served spared ⊢
    rw [← run_append]
    exact reached_keeps (P := fun p' => p'.Serves t p.nextVersion program)
      (fun earlier event serves rule =>
        serves_spared settings externals earlier serves rule.1 rule.2) served spared
  · by_contra some
    obtain ⟨read, dependency⟩ := List.exists_mem_of_ne_nil _ some
    refine not_serves_of_dependency (p := q) dependency now (stays [.invalidate read now] ?_)
    intro event member
    rw [List.mem_singleton.mp member]
    exact ne_of_dependency dependency
  · have start' : q.Serves t p.nextVersion program ∧ q.scheduler.graph.dependencies t = [] :=
      ⟨served, none⟩
    have alone : Follows (fun _ event => event.LeavesAlone t) q later :=
      follows_of_forall (fun event member _ => alone event member) q
    rw [← reached] at start' alone ⊢
    rw [← run_append]
    refine (reached_keeps (P := fun p' => p'.Serves t p.nextVersion program ∧
      p'.scheduler.graph.dependencies t = []) (fun earlier event kept leaves => ?_) start' alone).1
    have orderly : (start.run earlier).Orderly := orderly_run settings externals earlier
    have done := ((serves_iff orderly.consistent).mp kept.1).1
    have spared : (start.run earlier).Spares t event := spares_of_independent kept.2 leaves
    exact ⟨serves_spared settings externals earlier kept.1 spared leaves.not_publishes,
      independent_step (run_synced settings externals earlier) (orderly.exclusive t) done kept.2 event⟩

/-- What can happen to a source while a job for it is out. -/
def meanwhile : List Event :=
  [.work [.run 0, .send 0], .request (.ofPath "main.asm") 2, .tick .inline 2,
    .invalidate (.ofPath "lib.asm") 3, .collect fun _ => true]

theorem program_published_meanwhile_stays :
    let p := (new {} []).run [.request (.ofPath "main.asm") 0, .tick .park 0]
    ((p.step (.publish (.ofPath "main.asm") default 1)).run meanwhile).Serves (.ofPath "main.asm")
      p.nextVersion default := by
  intro p
  have none : p.scheduler.graph.dependencies (.ofPath "main.asm") = [] := by
    decide +kernel
  refine (published_program_stays_iff {} [] _ (.ofPath "main.asm") default 1).2.2.mpr none meanwhile ?_
  have other : SourceId.ofPath "lib.asm" ≠ .ofPath "main.asm" := by
    decide
  simp [meanwhile, Event.LeavesAlone, other]

/-- The source included another one before the program was published for it. -/
theorem published_program_is_taken_away :
    ¬∀ (events : List Event) (t : SourceId) (program : Program) (now : Nat) (later : List Event),
      (∀ event ∈ later, event.LeavesAlone t) →
        let p := (new {} []).run events
        ((p.step (.publish t program now)).run later).Serves t p.nextVersion program := by
  intro claim
  have dependency : SourceId.ofPath "lib.asm" ∈
      (((new {} []).run includingRun).step
        (.publish (.ofPath "main.asm") default 2)).scheduler.graph.dependencies (.ofPath "main.asm") := by
    decide +kernel
  refine not_serves_of_dependency dependency 3
    (claim includingRun _ default 2 [.invalidate (.ofPath "lib.asm") 3] ?_)
  intro event member
  rw [List.mem_singleton.mp member]
  exact ne_of_dependency dependency

end Plant

end RobotArena
