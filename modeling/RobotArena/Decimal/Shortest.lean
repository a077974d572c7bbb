/-!
# Shortest decimals

The decimal with the fewest digits that is read back as a given double-precision number, and
among those the one nearest to it. All comparisons are made in exact integer arithmetic.
-/

namespace RobotArena.Decimal

/-- A decimal: digits without trailing zeros, times a power of ten. -/
structure Shortest where
  digits : List Char
  exponent : Int
  deriving DecidableEq, Repr

/-- The numbers that are read back as one positive finite number: those between `low` and `high`,
each of them included if `closed` holds, around `value`. All are multiples of `1 / scale`. -/
structure Interval where
  low : Nat
  value : Nat
  high : Nat
  scale : Nat
  closed : Bool

/-- How many values the fraction of a number can have. -/
def fractionLimit : Nat := 0x10000000000000

/-- A power of ten. -/
def tenTo (n : Nat) : Nat :=
  Nat.pow 10 n

/-- The interval of a positive finite number, given by its bits. -/
def Interval.ofBits (bits : Nat) : Interval :=
  let exponent := bits / fractionLimit % 2048
  let fraction := bits % fractionLimit
  let m := if exponent = 0 then fraction else fraction + fractionLimit
  let below := if fraction = 0 ∧ 1 < exponent then 1 else 2
  let shift := if exponent = 0 then 0 else exponent - 1
  { low := (4 * m - below) <<< shift
    value := (4 * m) <<< shift
    high := (4 * m + 2) <<< shift
    scale := 1 <<< 1076
    closed := m % 2 = 0 }

/-- Whether a multiple of `1 / scale`, given as a ratio, is in the interval. -/
def Interval.contains (i : Interval) (num den : Nat) : Bool :=
  if i.closed then i.low * den ≤ num && num ≤ i.high * den
  else i.low * den < num && num < i.high * den

/-- The candidate with the given number of digits: of the value's two neighbours on that decimal
grid, those in the interval, the nearer one first. -/
def candidate? (i : Interval) (leading : Int) (count : Nat) : Option (Nat × Int) :=
  let exponent := leading - (count - 1 : Nat)
  -- a grid point `d` stands for `d * num / den` multiples of `1 / scale`
  let num := i.scale * (if 0 ≤ exponent then tenTo exponent.natAbs else 1)
  let den := if 0 ≤ exponent then 1 else tenTo exponent.natAbs
  let down := i.value * den / num
  let low := i.contains (down * num) den
  let high := i.contains ((down + 1) * num) den
  let gapLow := i.value * den - down * num
  let gapHigh := (down + 1) * num - i.value * den
  if low && (!high || gapLow < gapHigh || (gapLow == gapHigh && down % 2 == 0)) then
    some (down, exponent)
  else if high then some (down + 1, exponent)
  else none

/-- The power of ten of the first digit of a value. -/
def leadingExponent (i : Interval) : Int :=
  ((Nat.toDigits 10 (i.value * tenTo 400 / i.scale)).length : Int) - 401

/-- The digits of a number without trailing zeros, and how many zeros there were. -/
def stripZeros (n : Nat) : List Char × Nat :=
  let digits := (Nat.toDigits 10 n).reverse
  ((digits.dropWhile (· == '0')).reverse, (digits.takeWhile (· == '0')).length)

/-- The shortest decimal of a positive finite number, given by its bits. -/
def shortest (bits : Nat) : Shortest :=
  let i := Interval.ofBits bits
  let leading := leadingExponent i
  match (List.range 17).findSome? fun n => candidate? i leading (n + 1) with
  | some (d, exponent) =>
    let (digits, zeros) := stripZeros d
    ⟨digits, exponent + zeros⟩
  | none => ⟨[], 0⟩

end RobotArena.Decimal
