import RobotArena.Assembly.Fault
import RobotArena.Assembly.Token
import RobotArena.Diagnostic
import RobotArena.Isa.Bytecode

/-!
# Expansion of includes

The lines of a source with each `.include` replaced by the lines of the file it names. A file is
taken in once, where it is first named; naming it again adds nothing, and naming it inside itself
is a fault. A file that is not at hand is only noted, so that one expansion names every file that
is missing.
-/

namespace RobotArena.Assembly

/-- A line of code without its comment and outer blanks, with its origin. Lines count from zero,
and the column is the number of bytes in front of the code. -/
structure Line where
  file : UInt16
  number : Nat
  column : Nat
  text : List Char
  deriving DecidableEq, Repr

namespace Line

/-- The place of the code. -/
def range (line : Line) : TextRange :=
  .onLine line.number line.column (Text.utf8Size line.text)

/-- The origin of what the line is assembled to. -/
def origin (line : Line) : Origin :=
  ⟨line.file, line.number⟩

/-- The diagnostic for a fault of the line. A fault in an included file names the file. -/
def diagnose (files : Array String) (line : Line) (fault : Fault) : Diagnostic :=
  let path := files.getD line.file.toNat ""
  let message := if line.file = 0 then fault.message else s!"{path}: {fault.message}"
  ⟨line.range, .error, message⟩

end Line

/-- The texts at hand, by path. -/
abbrev Texts := List (String × List UInt8)

/-- The lines taken in so far. `files` holds the paths of the files that they come from and
`named` every path that was ever named, both starting with the root's. -/
structure Expansion where
  files : Array String
  named : Array String
  lines : Array Line := #[]
  diagnostics : Array Diagnostic := #[]
  missing : Bool := false

namespace Expansion

/-- The expansion that has taken in nothing of its root yet. -/
def start (root : String) : Expansion :=
  { files := #[root], named := #[root] }

/-- The paths that were looked up, in order. -/
def asked (e : Expansion) : List String :=
  e.named.toList.tail

/-- Notes a fault of a line. -/
def reject (e : Expansion) (line : Line) (fault : Fault) : Expansion :=
  { e with diagnostics := e.diagnostics.push (line.diagnose e.files fault) }

/-- The code on a line of a file, if there is any. -/
def codeLine? (file : UInt16) (number : Nat) (raw : List Char) : Option Line :=
  let code := dropComment raw
  let text := Text.trim code
  if text.isEmpty then none
  else some ⟨file, number, Text.utf8Size (code.takeWhile Text.isBlank), text⟩

/-- What a line asks for. -/
inductive Request where
  | code
  | file (path : String)
  | malformed
  deriving DecidableEq, Repr

/-- Tells whether a line is an `.include`, and of which file. -/
def request (text : List Char) : Request :=
  match Text.dropHead? ".include".toList text with
  | none => .code
  | some rest =>
    match readOnlyQuoted? rest with
    | some path => .file (String.ofList path)
    | none => .malformed

/-- Takes in a file that a line names. `take` takes in the text of a file, given the paths of the
files around it and its own number. -/
def addFile (texts : Texts) (take : Expansion → List String → UInt16 → List UInt8 → Expansion)
    (around : List String) (e : Expansion) (line : Line) (path : String) : Expansion :=
  if around.contains path then e.reject line (.includeCycle path)
  else if e.named.contains path then e
  else
    let e := { e with named := e.named.push path }
    match texts.lookup path with
    | none => { e with missing := true }
    | some text =>
      let file := UInt16.ofNat e.files.size
      take { e with files := e.files.push path } (path :: around) file text

/-- Takes in one line. -/
def addLine (texts : Texts) (take : Expansion → List String → UInt16 → List UInt8 → Expansion)
    (around : List String) (e : Expansion) (line : Line) : Expansion :=
  match request line.text with
  | .code => { e with lines := e.lines.push line }
  | .malformed => e.reject line .includeForm
  | .file path => addFile texts take around e line path

/-- The lines of a file that hold code. -/
def codeLines (file : UInt16) (text : List UInt8) : List Line :=
  (Text.lines (Text.decodeLossy text)).zipIdx.filterMap fun (raw, number) =>
    codeLine? file number raw

/-- Takes in the text of a file, with files inside each other to the given depth at most. -/
def addText (texts : Texts) :
    Nat → Expansion → List String → UInt16 → List UInt8 → Expansion
  | 0, e, _, _, _ => e
  | depth + 1, e, around, file, text =>
    (codeLines file text).foldl (addLine texts (addText texts depth) around) e

end Expansion

/-- Expands the includes of a text. Files inside each other are all different, so none is deeper
than the number of texts at hand. -/
def expand (texts : Texts) (root : String) (text : List UInt8) : Expansion :=
  Expansion.addText texts (texts.length + 1) (.start root) [root] 0 text

end RobotArena.Assembly
