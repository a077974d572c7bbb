import RobotArena.Binary32.Basic
import RobotArena.Decimal.Shortest
import RobotArena.Json.Basic
import RobotArena.Text.Hex

/-!
# Writing JSON

Values are written either without any space or with one member or item on each line. A
floating-point number is written with the fewest digits that are read back as the same number,
positionally from `1e-5` up to `1e16` and with an exponent beyond, and always with a point or an
exponent.
-/

namespace RobotArena.Json

/-! ### Floating-point numbers -/

/-- Where the point goes among the digits of a decimal, and its exponent if it has one. -/
def numberOfDecimal (negative : Bool) (d : Decimal.Shortest) : JsonNumber :=
  let size : Int := d.digits.length
  let place := size + d.exponent
  let zeros (n : Int) : List Char := List.replicate n.toNat '0'
  if 0 ≤ d.exponent ∧ place ≤ 16 then
    { negative, whole := d.digits ++ zeros d.exponent, fraction := some ['0'] }
  else if 0 < place ∧ place ≤ 16 then
    { negative, whole := d.digits.take place.toNat, fraction := some (d.digits.drop place.toNat) }
  else if -5 < place ∧ place ≤ 0 then
    { negative, whole := ['0'], fraction := some (zeros (-place) ++ d.digits) }
  else
    { negative, whole := d.digits.take 1
      fraction := if size = 1 then none else some (d.digits.drop 1)
      exponent := some (place - 1 < 0, Nat.toDigits 10 (place - 1).natAbs) }

/-- A floating-point number; one that is not finite has no JSON form and becomes `null`. -/
def ofFloat (x : Float) : Json :=
  let bits := x.toBits.toNat
  let magnitude := bits % 0x8000000000000000
  let negative := bits != magnitude
  if !x.isFinite then .null
  else if magnitude = 0 then .number { negative, whole := ['0'], fraction := some ['0'] }
  else .number (numberOfDecimal negative (Decimal.shortest magnitude))

/-- A single-precision number, written with the digits of its double-precision equal. -/
def ofBinary32 (x : Binary32) : Json :=
  if x.isFinite then ofFloat x.toFloat else .null

/-! ### Text -/

/-- The text of a number. -/
def renderNumber (n : JsonNumber) : List Char :=
  (if n.negative then ['-'] else []) ++ n.whole ++
    (match n.fraction with
      | some digits => '.' :: digits
      | none => []) ++
    match n.exponent with
    | some (down, digits) => 'e' :: (if down then '-' :: digits else digits)
    | none => []

/-- A character in a string. -/
def renderChar (c : Char) : List Char :=
  if c == '"' then ['\\', '"']
  else if c == '\\' then ['\\', '\\']
  else if c == '\n' then ['\\', 'n']
  else if c == '\r' then ['\\', 'r']
  else if c == '\t' then ['\\', 't']
  else if c == '\x08' then ['\\', 'b']
  else if c == '\x0c' then ['\\', 'f']
  else if c.toNat < 0x20 then '\\' :: 'u' :: Text.hexPadded 4 c.toNat
  else [c]

/-- A text in quotes. -/
def renderText (s : String) : String :=
  String.ofList ('"' :: s.toList.flatMap renderChar ++ ['"'])

/-- A key; one that denotes no text is written as the empty text. -/
def renderKey (key : Option String) : String :=
  renderText (key.getD "")

mutual

/-- A value without any space. -/
def render : Json → String
  | .null => "null"
  | .bool b => if b then "true" else "false"
  | .number n => String.ofList (renderNumber n)
  | .string s => renderText (s.getD "")
  | .array items => "[" ++ ",".intercalate (renderItems items) ++ "]"
  | .object members => "\x7b" ++ ",".intercalate (renderMembers members) ++ "\x7d"

/-- The items of an array. -/
def renderItems : List Json → List String
  | [] => []
  | item :: rest => render item :: renderItems rest

/-- The members of an object. -/
def renderMembers : List (Option String × Json) → List String
  | [] => []
  | (key, value) :: rest => (renderKey key ++ ":" ++ render value) :: renderMembers rest

end

/-- A line break and the blanks in front of what is nested so deep. -/
def newline (depth : Nat) : String :=
  String.ofList ('\n' :: List.replicate (2 * depth) ' ')

mutual

/-- A value with one item or member on each line, nested so deep. -/
def renderIndented (depth : Nat) : Json → String
  | .array [] => "[]"
  | .array items =>
    "[" ++ newline (depth + 1) ++
      ("," ++ newline (depth + 1)).intercalate (renderItemsIndented (depth + 1) items) ++
      newline depth ++ "]"
  | .object [] => "\x7b\x7d"
  | .object members =>
    "\x7b" ++ newline (depth + 1) ++
      ("," ++ newline (depth + 1)).intercalate (renderMembersIndented (depth + 1) members) ++
      newline depth ++ "\x7d"
  | value => render value

/-- The items of an array. -/
def renderItemsIndented (depth : Nat) : List Json → List String
  | [] => []
  | item :: rest => renderIndented depth item :: renderItemsIndented depth rest

/-- The members of an object. -/
def renderMembersIndented (depth : Nat) : List (Option String × Json) → List String
  | [] => []
  | (key, value) :: rest =>
    (renderKey key ++ ": " ++ renderIndented depth value) :: renderMembersIndented depth rest

end

/-- A value with one item or member on each line. -/
def renderPretty (value : Json) : String :=
  renderIndented 0 value

end RobotArena.Json
