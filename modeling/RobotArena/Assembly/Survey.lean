import RobotArena.Assembly.Expansion
import RobotArena.Assembly.Symbol

/-!
# Survey of a program

The first pass over the expanded lines. It defines the names, gives the strings their places in
the heap and collects the lines that hold instructions. A line may start with one label.
-/

namespace RobotArena.Assembly

/-- A string in the heap: its bytes with the final zero, and the line it comes from. -/
structure StringData where
  address : Nat
  bytes : List UInt8
  origin : Origin
  deriving DecidableEq, Repr

/-- A line that holds an instruction, and the instruction's text. -/
structure Slot where
  line : Line
  code : List Char
  deriving DecidableEq, Repr

/-- What the first pass has found. `cursor` is the first free address of the heap, and `overflowed`
tells whether the arithmetic of a constant has overflowed. -/
structure Survey where
  files : Array String
  externals : List Signature
  symbols : Symbols := .predefined
  diagnostics : Array Diagnostic
  slots : Array Slot := #[]
  strings : Array StringData := #[]
  cursor : Nat := Layout.heapBase
  overflowed : Bool := false

namespace Survey

/-- Notes a fault of a line. -/
def reject (s : Survey) (line : Line) (fault : Fault) : Survey :=
  { s with
    diagnostics := s.diagnostics.push (line.diagnose s.files fault)
    overflowed := s.overflowed || fault.overflows }

/-- Defines a name, or notes why it cannot be. -/
def define (s : Survey) (line : Line) (name : List Char) (symbol : Symbol) : Survey :=
  match s.symbols.define name symbol with
  | .ok symbols => { s with symbols }
  | .error fault => s.reject line fault

/-- What a constant's value is read against: the names so far, before any instruction is
added in front. -/
def scope (s : Survey) : Scope :=
  ⟨s.symbols, s.externals, 0⟩

/-- Defines a constant: a name and a value. -/
def addConstant (s : Survey) (line : Line) (rest : List Char) : Survey :=
  match Text.words rest with
  | [name, value] =>
    match s.scope.immediate value with
    | .ok v => s.define line name (.value v)
    | .error fault => s.reject line fault
  | _ => s.reject line .constantForm

/-- The least multiple of four that is not less than `n`. -/
def wholeWords (n : Nat) : Nat :=
  (n + 3) / 4 * 4

/-- Gives a string its place in the heap and defines its name. The string keeps its place even
if the name cannot be defined. -/
def addString (s : Survey) (line : Line) (rest : List Char) : Survey :=
  let (name, literal) := Text.cutAtBlank (Text.trimStart rest)
  match readOnlyQuoted? literal with
  | some text =>
    if name.isEmpty then s.reject line .stringForm
    else
      let bytes := Text.encode text ++ [0]
      let size := wholeWords bytes.length
      if Layout.stackBase < s.cursor + size then s.reject line .heapExhausted
      else
        let s := s.define line name (.value (Int32.ofNat s.cursor))
        { s with
          strings := s.strings.push ⟨s.cursor, bytes, line.origin⟩
          cursor := s.cursor + size }
  | none => s.reject line .stringForm

/-- Adds what a line holds besides its label. -/
def addCode (s : Survey) (line : Line) (code : List Char) : Survey :=
  if code.isEmpty then s
  else match Text.dropHead? ".equ".toList code with
    | some rest => s.addConstant line rest
    | none =>
      match Text.dropHead? ".string".toList code with
      | some rest => s.addString line rest
      | none =>
        if code.head? == some '.' then
          s.reject line (.unknownDirective (String.ofList (Text.cutAtBlank code).1))
        else { s with slots := s.slots.push ⟨line, code⟩ }

/-- Adds a line. -/
def addLine (s : Survey) (line : Line) : Survey :=
  match splitLabel? line.text with
  | some (name, rest) =>
    (s.define line name (.label s.slots.size)).addCode line (Text.trim rest)
  | none => s.addCode line line.text

/-- Surveys the lines of an expansion. -/
def ofExpansion (externals : List Signature) (e : Expansion) : Survey :=
  e.lines.foldl addLine { files := e.files, externals, diagnostics := e.diagnostics }

end Survey

end RobotArena.Assembly
