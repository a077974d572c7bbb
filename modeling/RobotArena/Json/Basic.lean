import RobotArena.Text.Integer

/-!
# JSON values

A value keeps its numbers as they are written, so that each reader decides what range it takes,
and keeps all members of an object, so that each reader decides what a repeated key means. A
string that escapes half of a surrogate pair is well formed but denotes no text.
-/

namespace RobotArena

/-- A number as it is written: the digits before the point, after it, and of the exponent. -/
structure JsonNumber where
  negative : Bool := false
  whole : List Char
  fraction : Option (List Char) := none
  exponent : Option (Bool × List Char) := none
  deriving DecidableEq, Repr

/-- A JSON value. -/
inductive Json where
  | null
  | bool (value : Bool)
  | number (literal : JsonNumber)
  | string (text : Option String)
  | array (items : List Json)
  | object (members : List (Option String × Json))
  deriving Inhabited

namespace JsonNumber

/-- The greatest significand that is read digit by digit. -/
def significandLimit : Nat := 0xFFFFFFFFFFFFFFFF

/-- Reads digits while the significand stays within its limit; also answers the digits that are
left. -/
def significand : Nat → List Char → Nat × List Char
  | acc, [] => (acc, [])
  | acc, c :: cs =>
    let next := acc * 10 + (c.toNat - 48)
    if next ≤ significandLimit then significand next cs else (acc, c :: cs)

/-- The integer that a number is: written without point and exponent, not as negative zero, and
within 64 bits, with or without sign. -/
def integer? (n : JsonNumber) : Option Int :=
  if n.fraction.isSome || n.exponent.isSome then none
  else
    let m := Text.decimalValue n.whole
    if n.negative then (if 0 < m ∧ m ≤ 0x8000000000000000 then some (-m) else none)
    else (if m ≤ significandLimit then some m else none)

/-- Multiplies by a power of ten in double precision; `none` beyond the finite numbers. -/
def scaled? (f : Float) (exponent : Int) : Option Float :=
  if exponent.natAbs ≤ 308 then
    let power := Float.ofScientific 1 false exponent.natAbs
    if exponent < 0 then some (f / power)
    else
      let g := f * power
      if g.isInf then none else some g
  else if f == 0 then some f
  else if 0 < exponent then none
  else scaled? (f / Float.ofScientific 1 false 308) (exponent + 308)
termination_by exponent.natAbs
decreasing_by omega

/-- The number in double precision: the significand, cut to 64 bits, times a power of ten. Two
roundings take place, so this is not always the nearest number. `none` beyond the finite
numbers. -/
def toFloat? (n : JsonNumber) : Option Float := do
  let (whole, dropped) := significand 0 n.whole
  let fraction := n.fraction.getD []
  let (m, ignored) := significand whole fraction
  let written : Int := match n.exponent with
    | none => 0
    | some (down, digits) =>
      let e : Int := Text.decimalValue digits
      if down then -e else e
  let shift : Int := dropped.length - (fraction.length - ignored.length : Nat)
  let f ← scaled? (UInt64.ofNat m).toFloat (shift + written)
  return if n.negative then -f else f

end JsonNumber

namespace Json

/-- An integer. -/
def int (n : Int) : Json :=
  .number { negative := n < 0, whole := Nat.toDigits 10 n.natAbs }

/-- A natural number. -/
def nat (n : Nat) : Json :=
  .number { whole := Nat.toDigits 10 n }

/-- A text. -/
def text (s : String) : Json :=
  .string (some s)

/-- An object with the given members. -/
def record (members : List (String × Json)) : Json :=
  .object (members.map fun (key, value) => (some key, value))

/-- An array of values that are each written in the same way. -/
def list {α : Type} (write : α → Json) (values : List α) : Json :=
  .array (values.map write)

/-- A value that may be absent, which is written as `null`. -/
def option {α : Type} (write : α → Json) : Option α → Json
  | some a => write a
  | none => .null

end Json

end RobotArena
