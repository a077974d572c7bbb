import RobotArena.Machine.Processor

/-!
# The engine

The engine gives a processor its slice of a tick. A processor whose record holds another version
than it was loaded with is reloaded, which takes the whole tick.
-/

namespace RobotArena

/-- How long slices are and whether they are traced. -/
structure EngineSettings where
  instructionBudget : Nat := 256
  traceEnabled : Bool := false
  traceCapacity : Nat := 64
  deriving DecidableEq, Repr

/-- What a processor did in a tick. -/
inductive TickOutcome where
  | idle
  | reloaded (version : Nat)
  | executed (instructions : Nat) (yielded : Bool)
  | signaled (signal : Signal) (instructions : Nat)
  deriving DecidableEq

/-- The settings, and the functions that programs can call. -/
structure Engine where
  settings : EngineSettings := {}
  table : Table := .standard

namespace Engine

/-- Runs a slice of a program on a processor. -/
def runSlice (e : Engine) (program : Program) (p : Processor) (host : Option Host) :
    TickOutcome × Processor × Option Host :=
  let ⟨source, binding, version, registers, memory, signal, crashContext, attachment, queues,
    trace⟩ := p
  let slice : Slice :=
    { state := ⟨registers, ⟨memory, queues, host⟩⟩
      trace := if e.settings.traceEnabled then some ⟨e.settings.traceCapacity, #[]⟩ else none }
  let (⟨⟨registers, ⟨memory, queues, host⟩⟩, executed, traced⟩, ending) :=
    slice.run program.code e.table e.settings.instructionBudget
  let p : Processor := ⟨source, binding, version, registers, memory, signal, crashContext,
    attachment, queues, traced.getD trace⟩
  match ending with
  | .exhausted => (.executed executed false, p, host)
  | .yielded => (.executed executed true, p, host)
  | .stopped t => (.signaled t.signal executed, p.raise program.debug t, host)

/-- Advances a processor by a tick. -/
def tick (e : Engine) (registry : Registry) (p : Processor) (host : Option Host) :
    TickOutcome × Processor × Option Host :=
  match p.runnable? registry with
  | none => (.idle, p, host)
  | some (version, program) =>
    if version ≠ p.version then (.reloaded version, p.reload version, host)
    else if p.signal ≠ .none then (.idle, p, host)
    else e.runSlice program p host

end Engine

end RobotArena
