import RobotArena.Assembly.Survey
import RobotArena.Program

/-!
# Assembling programs

`compile` turns assembly text into a program. The program starts with instructions that store the
strings and leave every register zero, and goes on with the instructions of the text.

Integers are read exactly. `compileChecked?` is the compile that reads them in arithmetic of 64
bits, which can overflow.
-/

namespace RobotArena.Assembly

/-- The register that stays zero while the strings are stored. -/
def baseRegister : UInt8 := 14

/-- The register that holds the word to store. -/
def valueRegister : UInt8 := 15

/-- The words of a string, the last one filled up with zeros. -/
def dataWords : List UInt8 → List UInt32
  | [] => []
  | [a] => [Word.ofBytes a 0 0 0]
  | [a, b] => [Word.ofBytes a b 0 0]
  | [a, b, c] => [Word.ofBytes a b c 0]
  | a :: b :: c :: d :: rest => Word.ofBytes a b c d :: dataWords rest

/-- Stores one word. -/
def storeWord (address : Nat) (w : UInt32) : List Instruction :=
  [{ op := .li, a := valueRegister, imm := w.toInt32 },
    { op := .st, a := valueRegister, b := baseRegister, imm := Int32.ofNat address }]

/-- Stores a string. -/
def StringData.store (data : StringData) : List Instruction :=
  (dataWords data.bytes).zipIdx.flatMap fun (w, i) => storeWord (data.address + 4 * i) w

/-- The instructions that store all strings and then clear the register used for it, each with
the origin of its string; the last has the first string's. -/
def prologue : List StringData → List (Instruction × Origin)
  | [] => []
  | first :: rest =>
    ((first :: rest).flatMap fun data => data.store.map (·, data.origin)) ++
      [({ op := .li, a := valueRegister }, first.origin)]

/-- The instructions assembled so far, and whether the arithmetic of an operand has overflowed. -/
structure Assembled where
  instructions : Array (Instruction × Origin)
  diagnostics : Array Diagnostic
  overflowed : Bool := false

/-- Assembles the instruction of a slot, or notes why it cannot be. -/
def Assembled.addSlot (files : Array String) (scope : Scope) (out : Assembled) (slot : Slot) :
    Assembled :=
  match scope.instruction slot.code with
  | .ok i => { out with instructions := out.instructions.push (i, slot.line.origin) }
  | .error fault =>
    { out with
      diagnostics := out.diagnostics.push (slot.line.diagnose files fault)
      overflowed := out.overflowed || fault.overflows }

/-- Says that there is nothing to run. -/
def emptyProgram : Diagnostic :=
  ⟨.onLine 0 0 0, .warning, "program has no instructions"⟩

/-- Assembles all slots of a survey, behind the prologue. -/
def Survey.encode (s : Survey) : Assembled :=
  let start := (prologue s.strings.toList).toArray
  let scope : Scope := ⟨s.symbols, s.externals, start.size⟩
  s.slots.foldl (Assembled.addSlot s.files scope) ⟨start, s.diagnostics, s.overflowed⟩

/-- The program of a survey, whatever faults there are. -/
def Survey.assemble (s : Survey) : Program :=
  let out := s.encode
  let instructions := out.instructions.toList
  { code := .ofInstructions (instructions.map (·.1))
    debug := ⟨s.files.toList, (instructions.map (·.2)).toArray⟩
    diagnostics :=
      out.diagnostics.toList ++ (if s.slots.isEmpty then [emptyProgram] else []) }

/-- How a compile ends. -/
inductive Outcome where
  | compiled (program : Program)
  | incomplete
  | failed (diagnostics : List Diagnostic)
  deriving DecidableEq

/-- The outcome for an expansion: a program without errors, or all there is to say about it. -/
def Outcome.ofExpansion (externals : List Signature) (e : Expansion) : Outcome :=
  if e.missing then .incomplete
  else
    let program := (Survey.ofExpansion externals e).assemble
    if program.diagnostics.any (·.isError) then .failed program.diagnostics
    else .compiled program

/-- Compiles a text, given the texts that it may include. -/
def compile (externals : List Signature) (texts : Texts) (root : String) (text : List UInt8) :
    Outcome :=
  .ofExpansion externals (expand texts root text)

/-- Whether the arithmetic of 64 bits overflows when an expansion is compiled. -/
def overflows (externals : List Signature) (e : Expansion) : Bool :=
  !e.missing && (Survey.ofExpansion externals e).encode.overflowed

/-- Compiles a text in arithmetic of 64 bits that is checked. An overflow ends the compile, and
there is no outcome then. -/
def compileChecked? (externals : List Signature) (texts : Texts) (root : String)
    (text : List UInt8) : Option Outcome :=
  let e := expand texts root text
  if overflows externals e then none else some (.ofExpansion externals e)

end RobotArena.Assembly
