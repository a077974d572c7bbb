import RobotArena.Binary32.Basic
import RobotArena.Text.Integer

/-!
# Reading single-precision numbers

A literal is an optional sign and then either digits with an optional point among them and an
optional exponent, or one of the words `inf`, `infinity` and `nan` in any case. It denotes the
number nearest to its exact decimal value.
-/

namespace RobotArena.Binary32

/-- Why a text is no literal. -/
inductive LiteralError where
  | empty
  | invalid
  deriving DecidableEq, Repr

/-- The words for the failure. -/
def LiteralError.message : LiteralError → String
  | .empty => "cannot parse float from empty string"
  | .invalid => "invalid float literal"

/-- The number nearest to `digits * 10 ^ exponent`. A value of 10 ^ 40 or more is beyond every
finite number, and one below 10 ^ -50 is nearest to zero. -/
def ofDecimal (digits : Nat) (exponent : Int) : Binary32 :=
  let leading := (Nat.toDigits 10 digits).length + exponent
  if digits = 0 || leading < -50 then 0
  else if 40 < leading then infinity
  else ofScientific digits (exponent < 0) exponent.natAbs

/-- Reads an exponent's optional sign and its digits. -/
def readExponent? : List Char → Option Int
  | '+' :: digits => magnitude? digits
  | '-' :: digits => (magnitude? digits).map (- ·)
  | digits => magnitude? digits
where
  magnitude? (digits : List Char) : Option Int :=
    if !digits.isEmpty && digits.all Text.isDigit then some (Text.decimalValue digits) else none

/-- Reads digits with an optional point and an optional exponent. -/
def readUnsigned? (cs : List Char) : Option Binary32 := do
  let whole := cs.takeWhile Text.isDigit
  let afterWhole := cs.dropWhile Text.isDigit
  let (fraction, rest) := match afterWhole with
    | '.' :: more => (more.takeWhile Text.isDigit, more.dropWhile Text.isDigit)
    | more => ([], more)
  guard !(whole.isEmpty && fraction.isEmpty)
  let exponent ← match rest with
    | [] => some 0
    | c :: more => if c == 'e' || c == 'E' then readExponent? more else none
  return ofDecimal (Text.decimalValue (whole ++ fraction)) (exponent - fraction.length)

/-- Reads a literal without its sign. -/
def readMagnitude? (cs : List Char) : Option Binary32 :=
  let word := cs.map Char.toLower
  if word = "inf".toList || word = "infinity".toList then some infinity
  else if word = "nan".toList then some nan
  else readUnsigned? cs

/-- Reads a literal. -/
def readLiteral : List Char → Except LiteralError Binary32
  | [] => .error .empty
  | '-' :: cs => ((readMagnitude? cs).map negate).elim (.error .invalid) .ok
  | '+' :: cs => (readMagnitude? cs).elim (.error .invalid) .ok
  | cs => (readMagnitude? cs).elim (.error .invalid) .ok

end RobotArena.Binary32
