import RobotArena.Isa.Instruction

/-!
# Programs as bytes

A program is a block of bytes that holds whole instructions. An instruction is read when it is
reached, so a block may hold some that cannot be read. `DebugInfo` tells which line of which file
each instruction comes from.
-/

namespace RobotArena

/-- The bytes of a program. -/
structure Bytecode where
  bytes : Array UInt8
  aligned : bytes.size % Instruction.size = 0
  deriving DecidableEq

namespace Bytecode

/-- The program without instructions. -/
def empty : Bytecode := ⟨#[], rfl⟩

instance : Inhabited Bytecode := ⟨empty⟩

/-- Takes bytes as a program if they hold whole instructions. -/
def ofBytes (bytes : Array UInt8) : Except CodeError Bytecode :=
  if h : bytes.size % Instruction.size = 0 then .ok ⟨bytes, h⟩
  else .error (.malformed bytes.size)

theorem length_encode (i : Instruction) : i.encode.length = Instruction.size := rfl

theorem length_flatMap_encode (is : List Instruction) :
    (is.flatMap Instruction.encode).length = is.length * Instruction.size := by
  induction is with
  | nil => rfl
  | cons i is ih =>
    rw [List.flatMap_cons, List.length_append, ih, length_encode, List.length_cons]
    simp only [Instruction.size]
    omega

/-- The program that consists of the given instructions. -/
def ofInstructions (is : List Instruction) : Bytecode where
  bytes := (is.flatMap Instruction.encode).toArray
  aligned := by
    rw [List.size_toArray, length_flatMap_encode, Nat.mul_mod_left]

/-- The number of instructions. -/
def length (code : Bytecode) : Nat :=
  code.bytes.size / Instruction.size

/-- The eight bytes of instruction number `index`. -/
def word? (code : Bytecode) (index : Nat) : Option (Vector UInt8 8) :=
  let i := index * Instruction.size
  if h : i + 7 < code.bytes.size then
    some #v[code.bytes[i], code.bytes[i + 1], code.bytes[i + 2], code.bytes[i + 3],
      code.bytes[i + 4], code.bytes[i + 5], code.bytes[i + 6], code.bytes[i + 7]]
  else none

/-- Instruction number `pc`: nothing past the end, and a fault if it cannot be read. -/
def fetch (code : Bytecode) (pc : UInt32) : Option (Except CodeError Instruction) :=
  (code.word? pc.toNat).map Instruction.decode

end Bytecode

/-- The origin of an instruction: the number of a file and a line counted from zero. -/
structure Origin where
  file : UInt16
  line : Nat
  deriving DecidableEq, Repr

/-- Which file and line each instruction of a program comes from. -/
structure DebugInfo where
  files : List String := []
  origins : Array Origin := #[]
  deriving DecidableEq, Repr

namespace DebugInfo

/-- The file and the line, counted from one, of instruction number `pc`. -/
def location? (info : DebugInfo) (pc : UInt32) : Option String := do
  let origin ← info.origins[pc.toNat]?
  let path ← info.files[origin.file.toNat]?
  return s!"{path}:{origin.line + 1}"

end DebugInfo

end RobotArena
