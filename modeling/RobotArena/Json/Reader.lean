import RobotArena.Json.Basic
import RobotArena.Text.Hex

/-!
# Reading JSON

`Json.read?` accepts exactly the texts of the JSON grammar that hold one value.
-/

namespace RobotArena.Json

/-- The four characters that may stand between tokens. -/
def isSpace (c : Char) : Bool :=
  c == ' ' || c == '\n' || c == '\t' || c == '\r'

/-- The text from its first token on. -/
def skip (cs : List Char) : List Char :=
  cs.dropWhile isSpace

/-! ### Numbers -/

/-- Reads an optional exponent. -/
def readExponent? (cs : List Char) : Option (Option (Bool × List Char) × List Char) :=
  match cs with
  | c :: rest =>
    if c == 'e' || c == 'E' then do
      let (down, rest) := match rest with
        | '-' :: more => (true, more)
        | '+' :: more => (false, more)
        | more => (false, more)
      let digits := rest.takeWhile Text.isDigit
      guard !digits.isEmpty
      return (some (down, digits), rest.dropWhile Text.isDigit)
    else some (none, cs)
  | [] => some (none, [])

/-- Reads an optional fraction. -/
def readFraction? (cs : List Char) : Option (Option (List Char) × List Char) :=
  match cs with
  | '.' :: rest => do
    let digits := rest.takeWhile Text.isDigit
    guard !digits.isEmpty
    return (some digits, rest.dropWhile Text.isDigit)
  | _ => some (none, cs)

/-- Reads a number. Its whole part has no leading zeros. -/
def readNumber? (cs : List Char) : Option (JsonNumber × List Char) := do
  let (negative, cs) := match cs with
    | '-' :: rest => (true, rest)
    | _ => (false, cs)
  let whole := cs.takeWhile Text.isDigit
  guard (!whole.isEmpty && (whole.length == 1 || whole.head? != some '0'))
  let (fraction, rest) ← readFraction? (cs.dropWhile Text.isDigit)
  let (exponent, rest) ← readExponent? rest
  return ({ negative, whole, fraction, exponent }, rest)

/-! ### Strings -/

/-- The value of four hexadecimal digits. -/
def readUnit? : List Char → Option (Nat × List Char)
  | a :: b :: c :: d :: rest => do
    let n ← Text.readHex? [a, b, c, d]
    return (n, rest)
  | _ => none

/-- A piece of a string: a character or half of a surrogate pair. -/
inductive Piece where
  | char (c : Char)
  | surrogate (unit : Nat)
  deriving DecidableEq

/-- The character that a one-letter escape stands for. -/
def unescape? : Char → Option Char
  | '"' => some '"'
  | '\\' => some '\\'
  | '/' => some '/'
  | 'b' => some '\x08'
  | 'f' => some '\x0c'
  | 'n' => some '\n'
  | 'r' => some '\r'
  | 't' => some '\t'
  | _ => none

/-- Whether a code unit is half of a surrogate pair. -/
def isSurrogate (unit : Nat) : Bool :=
  0xD800 ≤ unit && unit < 0xE000

/-- Reads the pieces of a string up to its closing quote, `fuel` pieces at most. The pieces read
so far come last first. -/
def readPieces? : Nat → List Piece → List Char → Option (List Piece × List Char)
  | 0, _, _ => none
  | _ + 1, _, [] => none
  | _ + 1, acc, '"' :: rest => some (acc.reverse, rest)
  | fuel + 1, acc, '\\' :: 'u' :: rest => do
    let (unit, rest) ← readUnit? rest
    let piece := if isSurrogate unit then .surrogate unit else .char (Char.ofNat unit)
    readPieces? fuel (piece :: acc) rest
  | fuel + 1, acc, '\\' :: c :: rest => do
    let c ← unescape? c
    readPieces? fuel (.char c :: acc) rest
  | fuel + 1, acc, c :: rest =>
    if c.toNat < 0x20 || c == '\\' then none else readPieces? fuel (.char c :: acc) rest

/-- Joins surrogate pairs; half a pair denotes no text. -/
def joinPieces? : List Piece → Option (List Char)
  | [] => some []
  | .char c :: rest => (joinPieces? rest).map (c :: ·)
  | .surrogate high :: .surrogate low :: rest =>
    if high < 0xDC00 ∧ 0xDC00 ≤ low then
      (joinPieces? rest).map
        (Char.ofNat (0x10000 + (high - 0xD800) * 0x400 + (low - 0xDC00)) :: ·)
    else none
  | .surrogate _ :: _ => none

/-- Reads a string after its opening quote. -/
def readString? (cs : List Char) : Option (Option String × List Char) := do
  let (pieces, rest) ← readPieces? (cs.length + 1) [] cs
  return ((joinPieces? pieces).map String.ofList, rest)

/-! ### Values -/

/-- Reads a key and its colon. -/
def readKey? (cs : List Char) : Option (Option String × List Char) := do
  match skip cs with
  | '"' :: rest =>
    let (key, rest) ← readString? rest
    match skip rest with
    | ':' :: rest => return (key, rest)
    | _ => none
  | _ => none

mutual

/-- Reads a value. Each call reads at least one character, so fuel beyond the length of the text
is never used up. -/
def readValue? : Nat → List Char → Option (Json × List Char)
  | 0, _ => none
  | fuel + 1, cs =>
    match skip cs with
    | 'n' :: 'u' :: 'l' :: 'l' :: rest => some (.null, rest)
    | 't' :: 'r' :: 'u' :: 'e' :: rest => some (.bool true, rest)
    | 'f' :: 'a' :: 'l' :: 's' :: 'e' :: rest => some (.bool false, rest)
    | '"' :: rest => do
      let (text, rest) ← readString? rest
      return (.string text, rest)
    | '[' :: rest =>
      match skip rest with
      | ']' :: rest => some (.array [], rest)
      | rest => readItems? fuel [] rest
    | '\x7b' :: rest =>
      match skip rest with
      | '\x7d' :: rest => some (.object [], rest)
      | rest => readMembers? fuel [] rest
    | rest => do
      let (n, rest) ← readNumber? rest
      return (.number n, rest)

/-- Reads the items of an array up to its end. The items read so far come last first. -/
def readItems? : Nat → List Json → List Char → Option (Json × List Char)
  | 0, _, _ => none
  | fuel + 1, acc, cs =>
    match readValue? fuel cs with
    | none => none
    | some (value, rest) =>
      match skip rest with
      | ',' :: rest => readItems? fuel (value :: acc) rest
      | ']' :: rest => some (.array (value :: acc).reverse, rest)
      | _ => none

/-- Reads the members of an object up to its end. The members read so far come last first. -/
def readMembers? : Nat → List (Option String × Json) → List Char → Option (Json × List Char)
  | 0, _, _ => none
  | fuel + 1, acc, cs =>
    match readKey? cs with
    | none => none
    | some (key, rest) =>
      match readValue? fuel rest with
      | none => none
      | some (value, rest) =>
        match skip rest with
        | ',' :: rest => readMembers? fuel ((key, value) :: acc) rest
        | '\x7d' :: rest => some (.object ((key, value) :: acc).reverse, rest)
        | _ => none

end

/-- Reads a text that holds one value. -/
def read? (cs : List Char) : Option Json := do
  let (value, rest) ← readValue? (cs.length + 1) cs
  guard (skip rest).isEmpty
  return value

end RobotArena.Json
