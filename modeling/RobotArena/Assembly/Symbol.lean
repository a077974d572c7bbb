import RobotArena.Assembly.Fault
import RobotArena.Assembly.Token
import RobotArena.Memory.Layout
import RobotArena.External.Signature

/-!
# Symbols and operands

What names mean in assembly text, and what the operands of instructions mean by way of them. A
label stands for an instruction's number, which is known only when the instructions that store
the strings are counted: `Scope.shift` is their count.
-/

namespace RobotArena.Assembly

/-- What a name stands for: the instruction that follows so many others of the text, or a
value. -/
inductive Symbol where
  | label (index : Nat)
  | value (value : Int32)
  deriving DecidableEq, Repr

/-- The names that are defined, the latest first. -/
abbrev Symbols := List (String × Symbol)

namespace Symbols

/-- The names that every program can use. -/
def predefined : Symbols :=
  Layout.names.map fun (name, address) => (name, .value (Int32.ofNat address))

/-- Defines a name, which must be well formed and new. -/
def define (symbols : Symbols) (name : List Char) (symbol : Symbol) : Except Fault Symbols :=
  let key := String.ofList name
  if !isName name then .error (.invalidName key)
  else if (symbols.lookup key).isSome then .error (.redefined key)
  else .ok ((key, symbol) :: symbols)

end Symbols

/-- Whether a fault is about an integer that 64 bits do not hold. The arithmetic that reads it
overflows before its range is checked, and that ends the whole compile. -/
def Fault.overflows : Fault → Bool
  | .immediateRange token => (readInteger? token.toList).any exceedsLimit
  | .functionRange value => exceedsLimit value
  | _ => false

/-- What operands are read against. -/
structure Scope where
  symbols : Symbols
  externals : List Signature
  shift : Nat

namespace Scope

/-- The number of a register. -/
def register (token : List Char) : Except Fault UInt8 :=
  match readRegister? token with
  | some index => .ok index
  | none => .error (.invalidRegister (String.ofList token))

/-- The value of an immediate operand: an integer that fits in 32 bits with or without sign, a
number by its bits, or a name. -/
def immediate (scope : Scope) (token : List Char) : Except Fault Int32 :=
  match readInteger? token with
  | some n =>
    if n < -0x80000000 ∨ 0xFFFFFFFF < n then .error (.immediateRange (String.ofList token))
    else .ok (Int32.ofInt n)
  | none =>
    match readNumber? token with
    | some x => .ok x.bits.toInt32
    | none =>
      match scope.symbols.lookup (String.ofList token) with
      | some (.label index) => .ok (Int32.ofNat (index + scope.shift))
      | some (.value v) => .ok v
      | none => .error (.unknownSymbol (String.ofList token))

/-- The number of an external function, given by number or by name. -/
def function (scope : Scope) (token : List Char) : Except Fault Int32 :=
  match readInteger? token with
  | some n => if 0 ≤ n ∧ n ≤ 0xFFFF then .ok (Int32.ofInt n) else .error (.functionRange n)
  | none =>
    match scope.externals.find? (·.name == String.ofList token) with
    | some signature => .ok (Int32.ofNat signature.id.toNat)
    | none => .error (.unknownFunction (String.ofList token))

/-- Fills in one operand of an instruction. -/
def fill (scope : Scope) (i : Instruction) : Operand × List Char → Except Fault Instruction
  | (.a, token) => return { i with a := ← register token }
  | (.b, token) => return { i with b := ← register token }
  | (.c, token) => return { i with c := ← register token }
  | (.immediate, token) => return { i with imm := ← scope.immediate token }
  | (.function, token) => return { i with imm := ← scope.function token }

/-- The operands in the rest of a line: pieces between commas, or none at all. -/
def operandTokens (rest : List Char) : List (List Char) :=
  if (Text.trim rest).isEmpty then [] else (Text.pieces (· == ',') rest).map Text.trim

/-- Reads an instruction: a mnemonic in any case and its operands. The first faulty operand from
the left is the one reported. -/
def instruction (scope : Scope) (code : List Char) : Except Fault Instruction :=
  let (word, rest) := Text.cutAtBlank code
  match Opcode.ofMnemonic? (String.ofList (word.map Char.toLower)) with
  | none => .error (.unknownInstruction (String.ofList word))
  | some op =>
    let tokens := operandTokens rest
    if tokens.length = op.operands.length then
      (op.operands.zip tokens).foldlM scope.fill { op }
    else .error (.operandCount op op.operands.length tokens.length)

end Scope

end RobotArena.Assembly
