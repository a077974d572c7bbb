import RobotArena.Machine.Context
import RobotArena.Memory.Layout
import RobotArena.Machine.Trap

/-!
# The state of a processor's program

Sixteen general registers, the number of the next instruction, the stack pointer, and what the
program can reach.
-/

namespace RobotArena

/-- The registers of a processor. -/
structure Registers where
  general : Vector UInt32 16 := Vector.replicate 16 0
  pc : UInt32 := 0
  sp : UInt32 := UInt32.ofNat Layout.stackTop
  deriving DecidableEq, Inhabited

namespace Registers

/-- The word in a general register. -/
def get (r : Registers) (index : UInt8) : UInt32 :=
  if h : index.toNat < 16 then r.general[index.toNat] else 0

/-- Replaces the word in a general register. -/
def set (r : Registers) (index : UInt8) (w : UInt32) : Registers :=
  { r with general := r.general.setIfInBounds index.toNat w }

/-- Replaces the words in the first general registers. -/
def setFirst (r : Registers) (start : Nat) : List UInt32 → Registers
  | [] => r
  | w :: ws => { r with general := r.general.setIfInBounds start w }.setFirst (start + 1) ws

/-- The argument block of a call: some words from register 1 on. -/
def arguments (r : Registers) (words : Nat) : List UInt8 :=
  ((r.general.toList.drop 1).take words).flatMap Word.toBytes

end Registers

/-- The state of a running program. -/
structure MachineState where
  registers : Registers
  context : Context

/-- What one instruction did. -/
inductive Event where
  | advanced
  | yielded
  | trapped (trap : Trap)
  deriving DecidableEq

end RobotArena
