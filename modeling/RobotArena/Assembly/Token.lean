import RobotArena.Binary32.Literal
import RobotArena.Isa.Instruction
import RobotArena.Text.Blank
import RobotArena.Text.Integer
import RobotArena.Text.Utf8

/-!
# Tokens of assembly text

The words that assembly text is made of: names, registers, integers, numbers and quoted strings,
each with the function that reads it.
-/

namespace RobotArena.Assembly

/-- A character that a name may start with. -/
def isNameStart (c : Char) : Bool :=
  c.isAlpha || c == '_'

/-- A character that a name may continue with. -/
def isNameRest (c : Char) : Bool :=
  c.isAlphanum || c == '_'

/-- A letter or an underscore, then letters, digits and underscores, all of ASCII. -/
def isName : List Char → Bool
  | [] => false
  | c :: cs => isNameStart c && cs.all isNameRest

/-- Reads a register: the letter `r` and its number. -/
def readRegister? : List Char → Option UInt8
  | 'r' :: digits => do
    let n ← Text.readUnsigned? 255 digits
    if n < registerCount then some (UInt8.ofNat n) else none
  | _ => none

/-- The greatest magnitude of an integer. -/
def integerLimit : Nat := 0x7FFFFFFFFFFFFFFF

/-- Whether an integer is greater than all that 64 bits with a sign hold. -/
def exceedsLimit (n : Int) : Bool :=
  decide ((integerLimit : Int) < n)

/-- Reads the digits after `0x`, which may have a sign of their own. -/
def readHexMagnitude? : List Char → Option Int
  | [] => none
  | ['+'] => none
  | ['-'] => none
  | '+' :: digits => readDigits? integerLimit digits
  | '-' :: digits => (readDigits? (integerLimit + 1) digits).map (- ·)
  | digits => readDigits? integerLimit digits
where
  readDigits? (limit : Nat) (digits : List Char) : Option Int := do
    let n ← Text.readHex? digits
    if n ≤ limit then some n else none

/-- Reads an integer without its sign: `0x` and hexadecimal digits, or decimal digits. -/
def readMagnitude? (cs : List Char) : Option Int :=
  match Text.dropHead? ['0', 'x'] cs with
  | some digits => readHexMagnitude? digits
  | none =>
    if !cs.isEmpty && cs.all Text.isDigit then
      let n := Text.decimalValue cs
      if n ≤ integerLimit then some n else none
    else none

/-- Reads an integer: an optional minus sign, and a magnitude. -/
def readInteger? : List Char → Option Int
  | '-' :: cs => (readMagnitude? cs).map (- ·)
  | cs => readMagnitude? cs

/-- Reads a number that is marked as one by a final `f` or by a point. -/
def readNumber? (cs : List Char) : Option Binary32 :=
  let marked := cs.getLast? == some 'f'
  let body := if marked then cs.dropLast else cs
  let opens := match body with
    | c :: _ => Text.isDigit c || c == '-' || c == '.'
    | [] => false
  if (marked || cs.contains '.') && opens then (Binary32.readLiteral body).toOption else none

/-- The character that an escape stands for. -/
def unescape? : Char → Option Char
  | 'n' => some '\n'
  | 't' => some '\t'
  | '0' => some '\x00'
  | '\\' => some '\\'
  | '"' => some '"'
  | _ => none

/-- Reads up to the closing quote; the second part is what follows it. -/
def readQuotedBody? : List Char → Option (List Char × List Char)
  | [] => none
  | '"' :: rest => some ([], rest)
  | '\\' :: c :: rest => do
    let c ← unescape? c
    let (text, rest) ← readQuotedBody? rest
    return (c :: text, rest)
  | c :: rest => do
    guard (c != '\\')
    let (text, rest) ← readQuotedBody? rest
    return (c :: text, rest)

/-- Reads a quoted string at the start of a text. -/
def readQuoted? : List Char → Option (List Char × List Char)
  | '"' :: rest => readQuotedBody? rest
  | _ => none

/-- Reads a text that consists of one quoted string and blanks. -/
def readOnlyQuoted? (cs : List Char) : Option (List Char) := do
  let (text, rest) ← readQuoted? (Text.trim cs)
  guard (Text.trim rest).isEmpty
  return text

/-- Where in a line a reader is: in code, in a string, or behind a backslash in a string. -/
inductive Region where
  | code
  | quoted
  | escaped
  deriving DecidableEq, Repr

/-- The part of a line before its comment, which starts at a semicolon outside strings. -/
def beforeComment : Region → List Char → List Char
  | _, [] => []
  | .code, ';' :: _ => []
  | .code, '"' :: cs => '"' :: beforeComment .quoted cs
  | .code, c :: cs => c :: beforeComment .code cs
  | .quoted, '\\' :: cs => '\\' :: beforeComment .escaped cs
  | .quoted, '"' :: cs => '"' :: beforeComment .code cs
  | .quoted, c :: cs => c :: beforeComment .quoted cs
  | .escaped, c :: cs => c :: beforeComment .quoted cs

/-- A line without its comment. -/
def dropComment (line : List Char) : List Char :=
  beforeComment .code line

/-- Splits a line that starts with a label: the label and what follows its colon. -/
def splitLabel? (code : List Char) : Option (List Char × List Char) :=
  let name := Text.trim (code.takeWhile (· != ':'))
  match code.dropWhile (· != ':') with
  | ':' :: rest => if isName name then some (name, rest) else none
  | _ => none

end RobotArena.Assembly
