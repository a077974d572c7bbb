/-!
# Single-precision numbers

A number is kept as its IEEE 754 bits, so that moving it never changes it and two numbers are
equal as values exactly when their bits are. Arithmetic and the numerical comparisons go through
`Float32`; what depends on the encoding alone (sign, class, total order, exact remainder, and what
becomes of operands that are no numbers) is defined on the bits.
-/

namespace RobotArena

/-- A binary32 number, given by its bits. -/
structure Binary32 where
  bits : UInt32
  deriving DecidableEq, Inhabited, Repr

namespace Binary32

/-- The number as an operand of floating-point arithmetic. -/
def toFloat32 (x : Binary32) : Float32 :=
  Float32.ofBits x.bits

/-- The bits other than the sign. -/
def magnitude (x : Binary32) : UInt32 :=
  x.bits &&& 0x7FFFFFFF

/-- Whether the sign bit is set. -/
def isNegative (x : Binary32) : Bool :=
  x.bits &&& 0x80000000 != 0

/-! ### What is no number -/

/-- Not a number, as it is written. -/
def nan : Binary32 := ⟨0x7FC00000⟩

/-- The result of an operation that has none for its numbers, as infinity less infinity: not a
number, and with the sign bit set. -/
def indefinite : Binary32 := ⟨0xFFC00000⟩

/-- Whether this is no number. -/
def isNaN (x : Binary32) : Bool :=
  0x7F800000 < x.magnitude

/-- What becomes of an operand that is no number: it keeps its bits, but it signals no more. -/
def quiet (x : Binary32) : Binary32 :=
  ⟨x.bits ||| 0x00400000⟩

/-- The bits of a result of floating-point arithmetic on numbers. -/
def ofFloat32 (x : Float32) : Binary32 :=
  if x.isNaN then indefinite else ⟨x.toBits⟩

/-- Applies an operation. What is no number is passed on. -/
def apply (f : Float32 → Float32) (x : Binary32) : Binary32 :=
  if x.isNaN then x.quiet else ofFloat32 (f x.toFloat32)

/-- Applies an operation to two operands. The first that is no number is passed on. -/
def combine (f : Float32 → Float32 → Float32) (x y : Binary32) : Binary32 :=
  if x.isNaN then x.quiet
  else if y.isNaN then y.quiet
  else ofFloat32 (f x.toFloat32 y.toFloat32)

/-! ### Rounding -/

/-- How many values the fraction of a number can have. -/
def fractionLimit : Nat := 0x800000

/-- The bits of positive infinity, which is where the magnitudes of numbers end. -/
def infiniteMagnitude : Nat := 0x7F800000

/-- The bits of the number nearest to `num / den`, a tie to the even one. The quotient is taken in
multiples of the least positive number, or of as small a power of two of them as leaves 24
significant bits. -/
def nearestMagnitude (num den : Nat) : Nat :=
  let num := num <<< 149
  let shift := (num / den).log2 - 23
  let den := den <<< shift
  let low := num / den
  let rest := num % den
  let up := den < 2 * rest || (2 * rest == den && low % 2 == 1)
  min (shift * fractionLimit + low + up.toNat) infiniteMagnitude

/-- The number nearest to `num / den`, a tie to the even one. -/
def ofRatio (num den : Nat) : Binary32 :=
  ⟨UInt32.ofNat (nearestMagnitude num den)⟩

/-- The number nearest to an integer, a tie to the even one. -/
def ofNat (n : Nat) : Binary32 :=
  ofRatio n 1

/-- The number nearest to `digits * 10 ^ exponent`, with `down` for a negative exponent. -/
def ofScientific (digits : Nat) (down : Bool) (exponent : Nat) : Binary32 :=
  if down then ofRatio digits (Nat.pow 10 exponent) else ofNat (digits * Nat.pow 10 exponent)

instance (n : Nat) : OfNat Binary32 n := ⟨ofNat n⟩

instance : OfScientific Binary32 := ⟨ofScientific⟩

/-! ### Arithmetic -/

instance : Add Binary32 := ⟨combine (· + ·)⟩
instance : Sub Binary32 := ⟨combine (· - ·)⟩
instance : Mul Binary32 := ⟨combine (· * ·)⟩
instance : Div Binary32 := ⟨combine (· / ·)⟩

/-- The square root. -/
def sqrt (x : Binary32) : Binary32 :=
  x.apply Float32.sqrt

/-- Numerically less; false when either is no number. -/
def lt (x y : Binary32) : Bool :=
  x.toFloat32 < y.toFloat32

/-- Numerically at most; false when either is no number. -/
def le (x y : Binary32) : Bool :=
  x.toFloat32 ≤ y.toFloat32

/-- Numerically equal: the two zeros are equal, and what is no number differs from itself. -/
def same (x y : Binary32) : Bool :=
  x.toFloat32 == y.toFloat32

/-- Positive infinity. -/
def infinity : Binary32 := ⟨0x7F800000⟩

/-- Whether this is neither infinite nor no number. -/
def isFinite (x : Binary32) : Bool :=
  x.magnitude < 0x7F800000

/-- Changes the sign. -/
def negate (x : Binary32) : Binary32 :=
  ⟨x.bits ^^^ 0x80000000⟩

instance : Neg Binary32 := ⟨negate⟩

/-- The absolute value. -/
def abs (x : Binary32) : Binary32 :=
  ⟨x.magnitude⟩

/-- The absolute value of `x` with the sign of `y`. -/
def withSignOf (x y : Binary32) : Binary32 :=
  ⟨x.magnitude ||| (y.bits &&& 0x80000000)⟩

/-- The lesser of two numbers; the other one if one is no number. -/
def lesser (x y : Binary32) : Binary32 :=
  if x.isNaN then y else if y.isNaN then x else if y.lt x then y else x

/-- The number of the interval from `low` to `high` nearest to `x`. -/
def clamp (x low high : Binary32) : Binary32 :=
  if x.lt low then low else if high.lt x then high else x

/-- The place of the number in the total order: negative numbers by falling magnitude, then the
others by rising magnitude, with `-0` before `0` and what is no number at the two ends. -/
def place (x : Binary32) : Int :=
  if x.isNegative then -(x.magnitude.toNat : Int) - 1 else x.magnitude.toNat

/-- At most in the total order. -/
def placeLe (x y : Binary32) : Bool :=
  decide (x.place ≤ y.place)

/-- The absolute value of a finite number as a multiple of the least positive one. -/
def units (x : Binary32) : Nat :=
  let m := x.magnitude.toNat
  let exponent := m / fractionLimit
  let fraction := m % fractionLimit
  if exponent = 0 then fraction else (fraction + fractionLimit) <<< (exponent - 1)

/-- The magnitude bits of `n` times the least positive number, for an `n` with at most 24
significant bits. -/
def magnitudeOfUnits (n : Nat) : Nat :=
  if n < fractionLimit then n
  else
    let shift := n.log2 - 23
    shift * fractionLimit + n >>> shift

/-- The remainder of dividing `x` by `y` toward zero: exact, and with the sign of `x`. -/
def rem (x y : Binary32) : Binary32 :=
  if x.isNaN then x.quiet
  else if y.isNaN then y.quiet
  else if !x.isFinite || y.units = 0 then indefinite
  else if !y.isFinite then x
  else (⟨UInt32.ofNat (magnitudeOfUnits (x.units % y.units))⟩ : Binary32).withSignOf x

/-- The remainder that is not negative. -/
def remEuclid (x y : Binary32) : Binary32 :=
  let r := x.rem y
  if r.lt 0 then r + y.abs else r

/-- The integer between zero and the number that is nearest to it; zero if this is no number, and
`2 ^ 128` or more in magnitude if it is infinite. -/
def truncate (x : Binary32) : Int :=
  if x.isNaN then 0
  else
    let n : Int := (x.units >>> 149 : Nat)
    if x.isNegative then -n else n

/-- The integer part as a 32-bit integer: out of range goes to the nearer end, and no number to
zero. -/
def toInt32 (x : Binary32) : Int32 :=
  Int32.ofInt (max (-0x80000000) (min x.truncate 0x7FFFFFFF))

/-- The nearest number to a 32-bit integer, a tie to the even one. -/
def ofInt32 (n : Int32) : Binary32 :=
  let m := ofFloat32 (UInt32.ofNat n.toInt.natAbs).toFloat32
  if n.toInt < 0 then m.negate else m

/-- Rounds a double-precision number to the nearest single-precision one. -/
def ofFloat (x : Float) : Binary32 :=
  ofFloat32 x.toFloat32

/-- The same number in double precision. -/
def toFloat (x : Binary32) : Float :=
  x.toFloat32.toFloat

/-- The radians of an angle in degrees. -/
def toRadians (x : Binary32) : Binary32 :=
  x * ⟨0x3C8EFA35⟩

/-- The degrees of an angle in radians. -/
def toDegrees (x : Binary32) : Binary32 :=
  x * ⟨0x42652EE1⟩

/-- The sine of an angle in radians. -/
def sin (x : Binary32) : Binary32 :=
  x.apply Float32.sin

/-- The cosine of an angle in radians. -/
def cos (x : Binary32) : Binary32 :=
  x.apply Float32.cos

/-- The angle in radians from the positive first axis to the point `(x, y)`. -/
def atan2 (y x : Binary32) : Binary32 :=
  combine (fun x y => y.atan2 x) x y

end Binary32

end RobotArena
