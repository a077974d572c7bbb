import RobotArena.Compilation.DependencyGraph
import RobotArena.Compilation.Registry

/-!
# The compile scheduler

Sources are asked for; a tick hands out jobs for those that are due and takes over the results
that have come in. Between the two a result may be outdated by a new request for its source, by
an upload or by a published program, which all change the record's generation: such a result is
discarded. Who runs the jobs, and when, is left to the dispatcher.
-/

namespace RobotArena

/-- How long compiles and reports are put off, in milliseconds. -/
structure SchedulerSettings where
  retryBackoff : Nat := 5000
  syncInterval : Nat := 1000
  deriving DecidableEq, Repr

/-- The answer to a job that is handed out: refused, or accepted with the results that are there
already. -/
inductive Acceptance where
  | refused
  | accepted (results : List JobResult)

/-- Hands out a job in a given environment. -/
abbrev Dispatcher (σ : Type) := Job → σ → Acceptance × σ

/-- What a tick did. -/
structure TickReport where
  dispatched : Nat := 0
  committed : Nat := 0
  discarded : Nat := 0
  finalized : Nat := 0
  deriving DecidableEq, Repr

/-- The records, who includes whom, the sources asked for since the last tick, and the results
that have come in but are not taken over yet. -/
structure Scheduler where
  settings : SchedulerSettings := {}
  registry : Registry := {}
  graph : DependencyGraph := {}
  demanded : List SourceId := []
  inbox : List JobResult := []

/-- A source without a record and without users. -/
structure UnknownSource where
  source : SourceId
  deriving DecidableEq, Repr

/-- The words for the error. -/
def UnknownSource.message (e : UnknownSource) : String :=
  s!"no compilation record for {e.source.render}"

namespace Scheduler

/-- The time to wait before another attempt, in microseconds. -/
def backoff (s : Scheduler) : Nat :=
  s.settings.retryBackoff * 1000

/-- Changes the record of a source. -/
def modify (s : Scheduler) (source : SourceId)
    (change : CompilationRecord → CompilationRecord) : Scheduler :=
  { s with registry := s.registry.modify source change }

/-- Asks for a source. A source that was never asked for is scheduled. -/
def request (s : Scheduler) (source : SourceId) (now : Nat) : Scheduler :=
  let registry := s.registry.ensure source now
  let fresh := (registry.find? source).any (·.status = .none)
  { s with
    registry := if fresh then registry.reschedule source now else registry
    demanded := if s.demanded.contains source then s.demanded else s.demanded ++ [source] }

/-- The sources that an upload of a source concerns. -/
def targets (s : Scheduler) (source : SourceId) : List SourceId :=
  source :: s.graph.dependents source

/-- Reschedules a source and everything that depends on it, as far as there are records. Answers
how many there were. -/
def invalidate (s : Scheduler) (source : SourceId) (now : Nat) :
    Except UnknownSource (Nat × Scheduler) :=
  let present := (s.targets source).filter fun t => (s.registry.find? t).isSome
  if present.isEmpty && !s.graph.contains source then .error ⟨source⟩
  else
    let registry := present.foldl (fun g t => g.reschedule t now) s.registry
    .ok (present.length, { s with registry })

/-! ### Handing out jobs -/

/-- Hands out a job for a source if one is due, and counts it if it is accepted. -/
def dispatch {σ : Type} (dispatcher : Dispatcher σ) (now : Nat) :
    Scheduler × σ × Nat → SourceId → Scheduler × σ × Nat
  | (s, env, count), source =>
    match s.registry.find? source with
    | none => (s, env, count)
    | some r =>
      if !r.isDue now then (s, env, count)
      else
        let s := s.modify source (·.start)
        match dispatcher ⟨source, r.generation⟩ env with
        | (.refused, env) => (s.modify source (·.postpone (now + s.backoff)), env, count)
        | (.accepted results, env) => ({ s with inbox := s.inbox ++ results }, env, count + 1)

/-! ### Taking over results -/

/-- What became of a result. -/
inductive Commit where
  | committed
  | discarded
  deriving DecidableEq, Repr

/-- Takes over a finished compile: its program and diagnostics, and what it read. -/
def finish (s : Scheduler) (source : SourceId) (program : Option Program)
    (diagnostics : List Diagnostic) (dependencies : List SourceId) : Scheduler :=
  let version := s.registry.nextVersion
  { s with
    registry :=
      (s.registry.modify source (·.finish version program diagnostics .compiled)).useVersion
    graph := s.graph.set source dependencies }

/-- Takes over one result, if it answers the latest request for its source. -/
def commit (now : Nat) (s : Scheduler) (result : JobResult) : Scheduler × Commit :=
  match s.registry.find? result.source with
  | none => (s, .discarded)
  | some r =>
    let s := s.modify result.source ({ · with inFlight := false })
    if r.generation ≠ result.generation then (s, .discarded)
    else match result.outcome with
      | .compiled program dependencies =>
        (s.finish result.source (some program) program.diagnostics dependencies, .committed)
      | .failed diagnostics dependencies =>
        (s.finish result.source none diagnostics dependencies, .committed)
      | .waiting progress =>
        let s := s.modify result.source fun r =>
          (r.setProgress progress).schedule (now + s.backoff)
        (s, .discarded)

/-- Takes over the results that have come in. Answers the sources with a finished compile, and
how many results had no effect on a program. -/
def commitAll (now : Nat) :
    List JobResult → Scheduler → Scheduler × List SourceId × Nat
  | [], s => (s, [], 0)
  | result :: rest, s =>
    let (s, what) := s.commit now result
    let (s, committed, discarded) := commitAll now rest s
    match what with
    | .committed => (s, result.source :: committed, discarded)
    | .discarded => (s, committed, discarded + 1)

/-- Ends the compile of a source, and counts it if it had just finished. -/
def finalize : Scheduler × Nat → SourceId → Scheduler × Nat
  | (s, count), source =>
    match s.registry.find? source with
    | some r =>
      if r.status = .compiled then (s.modify source (·.setStatus .done), count + 1)
      else (s, count)
    | none => (s, count)

/-- Hands out the jobs that are due, takes over the results that have come in, and forgets which
sources were asked for. -/
def tick {σ : Type} (s : Scheduler) (dispatcher : Dispatcher σ) (env : σ) (now : Nat) :
    TickReport × Scheduler × σ :=
  let (s, env, dispatched) := s.demanded.foldl (dispatch dispatcher now) (s, env, 0)
  let (s, committed, discarded) := commitAll now s.inbox { s with inbox := [] }
  let (s, finalized) := committed.foldl finalize (s, 0)
  (⟨dispatched, committed.length, discarded, finalized⟩, { s with demanded := [] }, env)

/-- Takes in results that a job outside of any tick has produced. -/
def receive (s : Scheduler) (results : List JobResult) : Scheduler :=
  { s with inbox := s.inbox ++ results }

/-- Drops the records that nobody uses, with what they depend on. Answers their sources. -/
def collect (s : Scheduler) (inUse : SourceId → Bool) : List SourceId × Scheduler :=
  let gone := s.registry.unused inUse
  (gone,
    { s with
      registry := s.registry.collect inUse
      graph := gone.foldl DependencyGraph.remove s.graph
      demanded := s.demanded.filter (!gone.contains ·) })

end Scheduler

end RobotArena
