/-!
# Signatures of external functions

A program calls functions of the arena by number. A signature gives a function's number, the name
that assembly text uses for it, and the sizes of its argument and result blocks in bytes.
-/

namespace RobotArena

/-- The number, name and block sizes of an external function. -/
structure Signature where
  id : UInt16
  name : String
  argSize : UInt8
  retSize : UInt8
  deriving DecidableEq, Repr

namespace Signature

/-- The greatest size of an argument block. -/
def maxArgSize : UInt8 := 24

/-- The greatest size of a result block. -/
def maxRetSize : UInt8 := 8

/-- What is wrong with the sizes of a signature. -/
inductive Fault where
  | notWholeWords
  | argumentsTooLarge (size : UInt8)
  | resultTooLarge (size : UInt8)
  deriving DecidableEq, Repr

/-- The words for the fault. -/
def Fault.message : Fault → String
  | .notWholeWords => "sizes must be whole words"
  | .argumentsTooLarge size => s!"argument block of {size} bytes exceeds {maxArgSize}"
  | .resultTooLarge size => s!"result block of {size} bytes exceeds {maxRetSize}"

/-- The first fault of a signature: blocks hold whole words, at most six of arguments and two of
results. -/
def fault? (s : Signature) : Option Fault :=
  if s.argSize % 4 ≠ 0 ∨ s.retSize % 4 ≠ 0 then some .notWholeWords
  else if maxArgSize < s.argSize then some (.argumentsTooLarge s.argSize)
  else if maxRetSize < s.retSize then some (.resultTooLarge s.retSize)
  else none

/-- The words for a fault of a signature. -/
def faultMessage (s : Signature) (f : Fault) : String :=
  s!"invalid signature for external '{s.name}': {f.message}"

/-- How many registers hold the arguments. -/
def argWords (s : Signature) : Nat :=
  s.argSize.toNat / 4

/-- How many registers take the result. -/
def retWords (s : Signature) : Nat :=
  s.retSize.toNat / 4

end Signature

end RobotArena
