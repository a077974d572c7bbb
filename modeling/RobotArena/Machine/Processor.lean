import RobotArena.Compilation.Registry
import RobotArena.Machine.Slice
import RobotArena.Memory.Attachment
import RobotArena.Memory.Console

/-!
# Processors

A processor is pointed at a source and bound to the record of a source. It holds the version of
the program it was last loaded with, the program's state, and the signal that keeps it still.
-/

namespace RobotArena

/-- The processor of a robot. -/
structure Processor where
  source : Option SourceId := none
  binding : Option SourceId := none
  version : Nat := 0
  registers : Registers := {}
  memory : Memory := .zero
  signal : Signal := .none
  crashContext : Option UInt32 := none
  attachment : AttachmentKind := .none
  queues : Queues
  trace : Trace := {}

namespace Processor

/-- A processor without a program. -/
def create (attachment : AttachmentKind) (capacities : QueueCapacities)
    (source : Option SourceId) : Processor :=
  { source, attachment, queues := .ofCapacities capacities }

/-- Points the processor at another source, or none. It is no longer bound and no signal keeps it
still. -/
def setSource (p : Processor) (source : Option SourceId) : Processor :=
  { p with source, binding := none, version := 0, signal := .none, crashContext := none }

/-- Binds the processor to the record of a source. -/
def bind (p : Processor) (source : SourceId) : Processor :=
  { p with binding := some source }

/-- The version and program that the processor is to run. -/
def runnable? (p : Processor) (registry : Registry) : Option (Nat × Program) := do
  (← registry.find? (← p.binding)).runnable?

/-- The text that the last trap left. -/
def crashMessage? (p : Processor) : Option String := do
  (p.memory.readText (← p.crashContext) (UInt32.ofNat Layout.crashMessageCapacity)).toOption

/-- Starts over with another version of the program: everything that belongs to the program is
cleared. -/
def reload (p : Processor) (version : Nat) : Processor :=
  { p with
    version
    registers := {}
    memory := p.memory.clearBelow Layout.deviceBase
    signal := .none
    crashContext := none
    trace := { p.trace with entries := #[] } }

/-- The text for a trap: what happened, and the file and line if they are known. -/
def trapText (debug : DebugInfo) (t : Trap) : String :=
  match t.pc?.bind debug.location? with
  | some location => s!"{t.message} ({location})"
  | none => t.message

/-- Keeps the processor still after a trap, and leaves a text. A program that crashes itself
leaves its own. -/
def raise (p : Processor) (debug : DebugInfo) (t : Trap) : Processor :=
  match t with
  | .halt => { p with signal := t.signal, crashContext := none }
  | .userCrash _ message => { p with signal := t.signal, crashContext := some message }
  | _ =>
    { p with
      signal := t.signal
      crashContext := some (UInt32.ofNat Layout.crashMessage)
      memory := p.memory.setCrashMessage (trapText debug t) }

end Processor

end RobotArena
