import RobotArena.External.Call
import RobotArena.Memory.Console

/-!
# Console functions

Printing, reading lines and taking commands. Printing and reading lines need nothing but memory.
-/

namespace RobotArena.External

/-- The greatest number of bytes that can be printed at once. -/
def maxPrint : UInt32 := 1024

/-- Prints the bytes at an address. -/
def print : External :=
  ofWords 16 "print" 8 0 fun args => do
    Call.requireLength (args 1) maxPrint
    let data ← Call.read (args 0) (args 1)
    modify fun c => { c with memory := c.memory.appendStdout data }
    return []

/-- Takes a delivered line, cut to the room at an address, and answers its length. Without a line,
asks for one and answers zero. -/
def readStdin : External :=
  ofWords 17 "read_stdin" 8 4 fun args => do
    let _ ← Call.read (args 0) (args 1)
    let line := (← get).memory.stdinLine
    if line.isEmpty then
      modify fun c => { c with memory := c.memory.requestStdin }
      return [0]
    else
      let kept := line.take (args 1).toNat
      modify fun c => { c with memory := c.memory.clearStdin }
      Call.write (args 0) kept
      return [UInt32.ofNat kept.length]

/-- Takes the oldest command if there is room for it at an address, and answers its length; zero
if there is none. A command that is too long stays. -/
def nextCommand : External :=
  ofWords 21 "next_command" 8 4 fun args => do
    let _ ← Call.host
    match (← get).queues.commands.front? with
    | none => return [0]
    | some command =>
      let length := UInt32.ofNat command.length
      Call.requireLength length (args 1)
      Call.write (args 0) command
      modify fun c => { c with queues := { c.queues with commands := c.queues.commands.pop } }
      return [length]

/-- The console functions. -/
def console : List External :=
  [print, readStdin, nextCommand]

end RobotArena.External
