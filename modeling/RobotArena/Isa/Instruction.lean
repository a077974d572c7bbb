import RobotArena.Isa.Opcode
import RobotArena.Word
import RobotArena.Text.Hex

/-!
# Instructions

An instruction is stored in eight bytes: the code of its operation, three register numbers and an
immediate. Reading refuses an unknown code first and then the first register number that is out
of range.
-/

namespace RobotArena

/-- An operation with its operands. The register fields can hold numbers that name no register;
only reading an instruction from bytes rules them out. -/
structure Instruction where
  op : Opcode
  a : UInt8 := 0
  b : UInt8 := 0
  c : UInt8 := 0
  imm : Int32 := 0
  deriving DecidableEq, Repr

/-- The number of general registers. -/
def registerCount : Nat := 16

/-- Why bytes are no instruction, or no program. -/
inductive CodeError where
  | unknownOpcode (code : UInt8)
  | invalidRegister (index : UInt8)
  | malformed (size : Nat)
  deriving DecidableEq, Repr

/-- The words for the fault. -/
def CodeError.message : CodeError → String
  | .unknownOpcode code => s!"unknown opcode 0x{Text.hexNat 2 code.toNat}"
  | .invalidRegister index => s!"register r{index} out of range"
  | .malformed size => s!"malformed bytecode: {size} bytes is not a multiple of 8"

namespace Instruction

/-- The number of bytes of an instruction. -/
def size : Nat := 8

/-- The operation and all of its fields. -/
def render (i : Instruction) : String :=
  s!"{i.op.mnemonic} r{i.a}, r{i.b}, r{i.c}, {i.imm}"

/-- The eight bytes of the instruction. -/
def encode (i : Instruction) : List UInt8 :=
  i.op.code :: i.a :: i.b :: i.c :: Word.toBytes i.imm.toUInt32

/-- The first of some register numbers that names no register. -/
def badRegister? (indices : List UInt8) : Option UInt8 :=
  indices.find? (registerCount ≤ ·.toNat)

/-- The instruction with the given fields, the immediate as a word. -/
def ofFields (code a b c : UInt8) (imm : UInt32) : Except CodeError Instruction :=
  match Opcode.ofCode? code with
  | none => .error (.unknownOpcode code)
  | some op =>
    match badRegister? [a, b, c] with
    | some index => .error (.invalidRegister index)
    | none => .ok ⟨op, a, b, c, imm.toInt32⟩

/-- Reads an instruction from its eight bytes. -/
def decode (bytes : Vector UInt8 8) : Except CodeError Instruction :=
  ofFields bytes[0] bytes[1] bytes[2] bytes[3]
    (Word.ofBytes bytes[4] bytes[5] bytes[6] bytes[7])

end Instruction

end RobotArena
