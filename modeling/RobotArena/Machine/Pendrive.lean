import RobotArena.External.Error

/-!
# Pendrives

A pendrive keeps a fixed number of blocks, each of 1024 bytes, all zero at first.
-/

namespace RobotArena

/-- The blocks of a pendrive. -/
structure Pendrive where
  blocks : List (List UInt8)
  deriving DecidableEq

namespace Pendrive

/-- The number of bytes of a block. -/
def blockSize : UInt32 := 1024

/-- A pendrive with a number of blocks of zeros. -/
def ofCount (count : Nat) : Pendrive :=
  ⟨List.replicate count (List.replicate blockSize.toNat 0)⟩

/-- The bytes of a block. -/
def block (d : Pendrive) (index : UInt32) : Except CallError (List UInt8) :=
  match d.blocks[index.toNat]? with
  | some bytes => .ok bytes
  | none => .error (.invalidArgument "block out of range")

/-- Replaces the start of a block. -/
def write (d : Pendrive) (index : UInt32) (data : List UInt8) : Except CallError Pendrive := do
  if blockSize.toNat < data.length then
    throw (.oversized (UInt32.ofNat data.length) blockSize)
  let old ← d.block index
  return ⟨d.blocks.set index.toNat (data ++ old.drop data.length)⟩

end Pendrive

end RobotArena
