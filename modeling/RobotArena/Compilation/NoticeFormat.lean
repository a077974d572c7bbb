import RobotArena.Compilation.Notice
import RobotArena.Json.Fields
import RobotArena.Json.Printer
import RobotArena.Json.Reader

/-!
# Notices as JSON

A notice is a record with a member `kind` that tells the two kinds of notices apart. A reader
takes the whole value in before it looks at it, so every part of the value has to denote
something, even a member that is not asked for.
-/

namespace RobotArena.Notice

/-! ### Writing -/

/-- A source. -/
def encodeSource (s : SourceId) : Json :=
  .record [("owner", .text s.owner.render), ("path", .text s.path)]

/-- A place in a source. -/
def encodePosition (p : TextPosition) : Json :=
  .record [("column", .nat p.column), ("line", .nat p.line)]

/-- A state of progress; `null` if it is not known. -/
def encodeProgress : Progress → Json
  | none => .null
  | some x => Json.ofBinary32 x

/-- A notice. -/
def encode : Notice → Json
  | .status source stage progress success version =>
    .record [("kind", .text "status"), ("progress", encodeProgress progress),
      ("source", encodeSource source), ("status", .text stage.word),
      ("success", .bool success), ("version", .int version)]
  | .diagnostic source d =>
    .record [("kind", .text "diagnostic"), ("message", .text d.message),
      ("range_end", encodePosition d.range.stop), ("range_start", encodePosition d.range.start),
      ("severity", .text d.severity.word), ("source", encodeSource source)]

/-! ### Reading -/

/-- How deep a value may be nested. -/
def maxDepth : Nat := 127

mutual

/-- Whether all parts of a value denote something and it is not nested too deep. -/
def isSound (depth : Nat) : Json → Bool
  | .null | .bool _ => true
  | .number n => n.integer?.isSome || n.toFloat?.isSome
  | .string s => s.isSome
  | .array items => 0 < depth && areSound (depth - 1) items
  | .object members => 0 < depth && membersAreSound (depth - 1) members

/-- Whether all items of an array are sound. -/
def areSound (depth : Nat) : List Json → Bool
  | [] => true
  | item :: rest => isSound depth item && areSound depth rest

/-- Whether all members of an object are sound. -/
def membersAreSound (depth : Nat) : List (Option String × Json) → Bool
  | [] => true
  | (key, value) :: rest => key.isSome && isSound depth value && membersAreSound depth rest

end

/-- The word for a choice: a text, or the only key of an object that holds nothing else. -/
def decodeChoice? : Json → Option String
  | .string s => s
  | .object [(key, .null)] => key
  | .object [(key, .object [])] => key
  | _ => none

/-- The greatest number of 32 bits. -/
def maxWord : Nat := 0xFFFFFFFF

/-- A source. -/
def decodeSource? (value : Json) : Option SourceId := do
  let fields ← value.fields? ["path", "owner"]
  let path ← fields.required "path" Json.toText?
  let owner ← fields.required "owner" fun v => v.toText?.bind PeerId.read?
  return ⟨path, owner⟩

/-- A place in a source. -/
def decodePosition? (value : Json) : Option TextPosition := do
  let fields ← value.fields? ["line", "column"]
  let line ← fields.required "line" (Json.toNat? maxWord)
  let column ← fields.required "column" (Json.toNat? maxWord)
  return ⟨line, column⟩

/-- A state of progress. A number beyond single precision becomes infinite. -/
def decodeProgress? : Json → Option Progress
  | .null => some none
  | value => value.toBinary32?.map some

/-- A notice on where a compile stands, without its kind. -/
def decodeStatus? (value : Json) : Option Notice := do
  let fields ← value.fields? ["source", "status", "progress", "success", "version"]
  let source ← fields.required "source" decodeSource?
  let stage ← fields.required "status" fun v => (decodeChoice? v).bind CompilationStatus.ofWord?
  let progress ← fields.required "progress" decodeProgress?
  let success ← fields.required "success" Json.toBool?
  let version ← fields.required "version" (Json.toInt? (-0x8000000000000000) 0x7FFFFFFFFFFFFFFF)
  return .status source stage progress success version

/-- A notice of a diagnostic, without its kind. -/
def decodeDiagnostic? (value : Json) : Option Notice := do
  let fields ← value.fields? ["source", "range_start", "range_end", "severity", "message"]
  let source ← fields.required "source" decodeSource?
  let start ← fields.required "range_start" decodePosition?
  let stop ← fields.required "range_end" decodePosition?
  let severity ← fields.required "severity" fun v => (decodeChoice? v).bind Severity.ofWord?
  let message ← fields.required "message" Json.toText?
  return .diagnostic source ⟨⟨start, stop⟩, severity, message⟩

/-- The kind of a notice, and the value without it. -/
def splitKind? : Json → Option (String × Json)
  | .object members => do
    let isKind (m : Option String × Json) : Bool := m.1 == some "kind"
    match members.filter isKind with
    | [(_, .string (some kind))] => return (kind, .object (members.filter (!isKind ·)))
    | _ => none
  | .array (.string (some kind) :: rest) => some (kind, .array rest)
  | _ => none

/-- A notice. -/
def decode? (value : Json) : Option Notice := do
  guard (isSound maxDepth value)
  let (kind, body) ← splitKind? value
  if kind = "status" then decodeStatus? body
  else if kind = "diagnostic" then decodeDiagnostic? body
  else none

/-- Reads a notice from text. -/
def read? (s : String) : Option Notice :=
  (Json.read? s.toList).bind decode?

end RobotArena.Notice
