/-!
# Hexadecimal text

Bytes and words written with lower-case hexadecimal digits, and digits read in either case.
-/

namespace RobotArena.Text

/-- The digits of `n` to the base sixteen, without leading zeros. -/
def hexDigits (n : Nat) : List Char :=
  Nat.toDigits 16 n

/-- `n` in hexadecimal with at least `width` digits. -/
def hexPadded (width n : Nat) : List Char :=
  let digits := hexDigits n
  List.replicate (width - digits.length) '0' ++ digits

/-- The two digits of a byte. -/
def hexByte (b : UInt8) : List Char :=
  hexPadded 2 b.toNat

/-- Two digits for each byte, in order. -/
def hexBytes (bytes : List UInt8) : String :=
  String.ofList (bytes.flatMap hexByte)

/-- `n` in hexadecimal with at least `width` digits, as a string. -/
def hexNat (width n : Nat) : String :=
  String.ofList (hexPadded width n)

/-- The value of a hexadecimal digit of either case. -/
def hexValue? (c : Char) : Option Nat :=
  let n := c.toNat
  if 48 ≤ n && n ≤ 57 then some (n - 48)
  else if 97 ≤ n && n ≤ 102 then some (n - 87)
  else if 65 ≤ n && n ≤ 70 then some (n - 55)
  else none

/-- The number that hexadecimal digits denote; `none` if a character is no digit. No digits
denote zero. -/
def readHex? (cs : List Char) : Option Nat :=
  cs.foldl (fun acc c => do return (← acc) * 16 + (← hexValue? c)) (some 0)

/-- The bytes that pairs of hexadecimal digits denote. -/
def readHexBytes? : List Char → Option (List UInt8)
  | [] => some []
  | [_] => none
  | a :: b :: rest => do
    let high ← hexValue? a
    let low ← hexValue? b
    let bytes ← readHexBytes? rest
    return UInt8.ofNat (high * 16 + low) :: bytes

end RobotArena.Text
