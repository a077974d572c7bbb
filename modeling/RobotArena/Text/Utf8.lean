/-!
# Reading UTF-8 that may be damaged

`decodeLossy` reads any bytes as text. Every maximal part of a damaged sequence, that is a lead
byte with the continuation bytes that still fit it, becomes one replacement character, so no byte
is ever a reason to fail. `decode?` reads undamaged text only.
-/

namespace RobotArena.Text

/-- Stands for a damaged sequence. -/
def replacement : Char :=
  Char.ofNat 0xFFFD

/-- What a lead byte announces: how many bytes follow it, the range that the first of them must
lie in, and the bits it contributes itself. The ranges rule out overlong forms, surrogates and
values beyond the last code point. -/
structure Lead where
  following : Nat
  low : UInt8
  high : UInt8
  bits : Nat

/-- What the byte announces, if a sequence of two bytes or more may start with it. -/
def Lead.ofByte? (b : UInt8) : Option Lead :=
  let n := b.toNat
  if n < 0xC2 then none
  else if n < 0xE0 then some ⟨1, 0x80, 0xBF, n - 0xC0⟩
  else if n == 0xE0 then some ⟨2, 0xA0, 0xBF, 0⟩
  else if n == 0xED then some ⟨2, 0x80, 0x9F, 13⟩
  else if n < 0xF0 then some ⟨2, 0x80, 0xBF, n - 0xE0⟩
  else if n == 0xF0 then some ⟨3, 0x90, 0xBF, 0⟩
  else if n < 0xF4 then some ⟨3, 0x80, 0xBF, n - 0xF0⟩
  else if n == 0xF4 then some ⟨3, 0x80, 0x8F, 4⟩
  else none

/-- Reads continuation bytes, the first of them in the given range, and what is left. -/
def continuation : Nat → UInt8 → UInt8 → Nat → List UInt8 → Option Char × List UInt8
  | 0, _, _, bits, bytes => (some (Char.ofNat bits), bytes)
  | _ + 1, _, _, _, [] => (none, [])
  | n + 1, low, high, bits, b :: bytes =>
    if low ≤ b ∧ b ≤ high then
      continuation n 0x80 0xBF (bits * 64 + (b.toNat - 0x80)) bytes
    else (none, b :: bytes)

/-- Reads one character whose first byte is `b`; `none` for a damaged sequence. -/
def scalar (b : UInt8) (bytes : List UInt8) : Option Char × List UInt8 :=
  if b < 0x80 then (some (Char.ofNat b.toNat), bytes)
  else match Lead.ofByte? b with
    | none => (none, bytes)
    | some lead => continuation lead.following lead.low lead.high lead.bits bytes

theorem length_continuation_le (n : Nat) (low high : UInt8) (bits : Nat) (bytes : List UInt8) :
    (continuation n low high bits bytes).2.length ≤ bytes.length := by
  induction n generalizing low high bits bytes with
  | zero => simp [continuation]
  | succ n ih =>
    cases bytes with
    | nil => simp [continuation]
    | cons b bytes =>
      rw [continuation]
      split
      · exact Nat.le_trans (ih _ _ _ _) (by simp)
      · simp

theorem length_scalar_le (b : UInt8) (bytes : List UInt8) :
    (scalar b bytes).2.length ≤ bytes.length := by
  unfold scalar
  split
  · simp
  · split
    · simp
    · exact length_continuation_le ..

/-- The characters of the bytes, `none` where a sequence is damaged. -/
def scalars : List UInt8 → List (Option Char)
  | [] => []
  | b :: bytes =>
    let next := scalar b bytes
    next.1 :: scalars next.2
termination_by bytes => bytes.length
decreasing_by
  have := length_scalar_le b bytes
  simp only [List.length_cons]
  omega

/-- Reads bytes as text, with a replacement character for each damaged sequence. -/
def decodeLossy (bytes : List UInt8) : List Char :=
  (scalars bytes).map (·.getD replacement)

/-- Reads bytes as text if no sequence is damaged. -/
def decode? (bytes : List UInt8) : Option (List Char) :=
  (scalars bytes).mapM id

/-- The bytes of a text. -/
def encode (cs : List Char) : List UInt8 :=
  cs.flatMap String.utf8EncodeChar

/-- `decodeLossy` as a string. -/
def ofBytesLossy (bytes : List UInt8) : String :=
  String.ofList (decodeLossy bytes)

/-- The bytes of a string. -/
def toBytes (s : String) : List UInt8 :=
  encode s.toList

end RobotArena.Text
