import RobotArena.Machine.Context
import RobotArena.External.Signature

/-!
# External calls

A call reads and changes the context of the program that makes it. A call that is rejected
answers a `CallError`; the context at that point is kept, so whether a rejected call leaves no
trace is a property of each function.
-/

namespace RobotArena

/-- A call that answers a value or is rejected. -/
abbrev Call (α : Type) := EStateM CallError Context α

namespace Call

/-- The words of an argument block. Words beyond its end are zero. -/
abbrev Args := Nat → UInt32

/-- The argument as a number. -/
def Args.number (args : Args) (index : Nat) : Binary32 :=
  ⟨args index⟩

/-- Two arguments as a point. -/
def Args.point (args : Args) (index : Nat) : Vec2 :=
  ⟨args.number index, args.number (index + 1)⟩

/-- Rejects the call unless a condition holds. -/
def require (condition : Bool) (e : CallError) : Call Unit :=
  if condition then pure () else throw e

/-- Rejects a length beyond a limit. -/
def requireLength (length limit : UInt32) : Call Unit :=
  require (length ≤ limit) (.oversized length limit)

/-- The robot that the call is made for. -/
def host : Call Host := do
  match (← get).host with
  | some h => return h
  | none => throw .noContext

/-- Replaces the robot's side of the context. -/
def setHost (h : Host) : Call Unit :=
  modify fun c => { c with host := some h }

/-- Reads bytes from memory. -/
def read (address length : UInt32) : Call (List UInt8) := do
  match (← get).memory.read address length with
  | .ok bytes => return bytes
  | .error fault => throw (.badPointer fault)

/-- Writes bytes to memory. -/
def write (address : UInt32) (data : List UInt8) : Call Unit := do
  match (← get).memory.write address data with
  | .ok memory => modify fun c => { c with memory }
  | .error fault => throw (.badPointer fault)

/-- Takes the answer of a part of the context. -/
def ofExcept {α : Type} : Except CallError α → Call α
  | .ok a => pure a
  | .error e => throw e

end Call

/-- A function that programs can call: from the bytes of the arguments and the size of the
result block to the bytes of the result. -/
structure External where
  signature : Signature
  body : List UInt8 → Nat → Call (List UInt8)

namespace External

/-- The result block of a given size that holds as many whole words as fit, and zeros behind
them. -/
def resultBlock (size : Nat) (words : List UInt32) : List UInt8 :=
  let bytes := (words.take (size / 4)).flatMap Word.toBytes
  bytes ++ List.replicate (size - bytes.length) 0

/-- A function on words. -/
def ofWords (id : UInt16) (name : String) (argSize retSize : UInt8)
    (f : Call.Args → Call (List UInt32)) : External where
  signature := ⟨id, name, argSize, retSize⟩
  body args size := return resultBlock size (← f (Word.ofBlock args))

/-- A function on words that depends on its arguments alone. -/
def ofPure (id : UInt16) (name : String) (argSize retSize : UInt8)
    (f : Call.Args → UInt32) : External :=
  ofWords id name argSize retSize fun args => return [f args]

/-! ### Functions for hosts to add -/

/-- Copies as much of the arguments to the result as fits. -/
def echo (signature : Signature) : External where
  signature
  body args size := return args.take size ++ List.replicate (size - args.length) 0

/-- Answers the number of the robot that makes the call. -/
def self (signature : Signature) : External where
  signature
  body _ size := return resultBlock size [(← Call.host).entity.number]

/-- Rejects every call. -/
def rejecting (signature : Signature) (reason : String) : External where
  signature
  body _ _ := throw (.invalidArgument reason)

end External

end RobotArena
