/-!
# Operations

The operations of the robots' processor, their codes, their mnemonics and the operands that each
one takes in assembly text.
-/

namespace RobotArena

/-- What a processor can do in one step. -/
inductive Opcode where
  | nop | halt | crash
  | li | mov | addi
  | add | sub | mul | div | rem
  | and | or | xor | shl | shr
  | fadd | fsub | fmul | fdiv | itof | ftoi
  | eq | lt | le | flt
  | jmp | jz | jnz
  | ld | st | ldb | stb
  | push | pop | call | ret
  | ext | yield
  deriving DecidableEq, Repr

namespace Opcode

/-- Every operation, at the place that is its code. -/
def all : Array Opcode :=
  #[nop, halt, crash, li, mov, addi, add, sub, mul, div, rem, and, or, xor, shl, shr, fadd, fsub,
    fmul, fdiv, itof, ftoi, eq, lt, le, flt, jmp, jz, jnz, ld, st, ldb, stb, push, pop, call, ret,
    ext, yield]

/-- The code of an operation. -/
def code (op : Opcode) : UInt8 :=
  UInt8.ofNat op.ctorIdx

/-- The operation with a code. -/
def ofCode? (b : UInt8) : Option Opcode :=
  all[b.toNat]?

/-- The word for an operation in assembly text. -/
def mnemonic : Opcode → String
  | nop => "nop" | halt => "halt" | crash => "crash"
  | li => "li" | mov => "mov" | addi => "addi"
  | add => "add" | sub => "sub" | mul => "mul" | div => "div" | rem => "rem"
  | and => "and" | or => "or" | xor => "xor" | shl => "shl" | shr => "shr"
  | fadd => "fadd" | fsub => "fsub" | fmul => "fmul" | fdiv => "fdiv"
  | itof => "itof" | ftoi => "ftoi"
  | eq => "eq" | lt => "lt" | le => "le" | flt => "flt"
  | jmp => "jmp" | jz => "jz" | jnz => "jnz"
  | ld => "ld" | st => "st" | ldb => "ldb" | stb => "stb"
  | push => "push" | pop => "pop" | call => "call" | ret => "ret"
  | ext => "ext" | yield => "yield"

/-- The operation that a word stands for. -/
def ofMnemonic? (word : String) : Option Opcode :=
  all.find? (·.mnemonic == word)

theorem ofCode?_code (op : Opcode) : ofCode? op.code = some op := by
  cases op <;> rfl

theorem ofMnemonic?_mnemonic (op : Opcode) : ofMnemonic? op.mnemonic = some op := by
  cases op <;> decide

end Opcode

/-- What an operand in assembly text fills in: one of the three register fields, the immediate,
or the immediate by way of an external function's name. -/
inductive Operand where
  | a
  | b
  | c
  | immediate
  | function
  deriving DecidableEq, Repr

/-- The operands of an operation, in the order in which they are written. -/
def Opcode.operands : Opcode → List Operand
  | nop | halt | ret | yield => []
  | crash | push | pop => [.a]
  | li | jz | jnz => [.a, .immediate]
  | jmp | call => [.immediate]
  | mov | itof | ftoi => [.a, .b]
  | addi | ld | st | ldb | stb => [.a, .b, .immediate]
  | ext => [.function]
  | add | sub | mul | div | rem | and | or | xor | shl | shr | fadd | fsub | fmul | fdiv | eq
  | lt | le | flt => [.a, .b, .c]

end RobotArena
