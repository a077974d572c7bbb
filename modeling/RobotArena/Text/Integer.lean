import RobotArena.Text.Hex

/-!
# Reading integers

Integers in decimal, with the three ways in which a text fails to be one. An unsigned number may
have a plus sign and any number of leading zeros.
-/

namespace RobotArena.Text

/-- Why a text is not a number of the wanted range. -/
inductive IntegerError where
  | empty
  | invalidDigit
  | tooLarge
  deriving DecidableEq, Repr

/-- The words for the failure. -/
def IntegerError.message : IntegerError → String
  | .empty => "cannot parse integer from empty string"
  | .invalidDigit => "invalid digit found in string"
  | .tooLarge => "number too large to fit in target type"

/-- The digits `0` to `9`. -/
def isDigit (c : Char) : Bool :=
  48 ≤ c.toNat && c.toNat ≤ 57

/-- The number that decimal digits denote. -/
def decimalValue (digits : List Char) : Nat :=
  digits.foldl (fun acc c => acc * 10 + (c.toNat - 48)) 0

/-- Reads digits one at a time, so that the first fault from the left decides. -/
def readDigits (limit : Nat) : Nat → List Char → Except IntegerError Nat
  | acc, [] => .ok acc
  | acc, c :: cs =>
    if isDigit c then
      let next := acc * 10 + (c.toNat - 48)
      if next ≤ limit then readDigits limit next cs else .error .tooLarge
    else .error .invalidDigit

/-- Reads an unsigned number of at most `limit`: an optional plus sign, then digits. -/
def readUnsigned (limit : Nat) (cs : List Char) : Except IntegerError Nat :=
  match cs with
  | [] => .error .empty
  | ['+'] => .error .invalidDigit
  | '+' :: digits => readDigits limit 0 digits
  | digits => readDigits limit 0 digits

/-- Reads a number of at most `limit`, or nothing. -/
def readUnsigned? (limit : Nat) (cs : List Char) : Option Nat :=
  (readUnsigned limit cs).toOption

end RobotArena.Text
