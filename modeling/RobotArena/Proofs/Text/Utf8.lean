import RobotArena.Text.Utf8

/-!
# Text read back from its bytes

The main statement is that the bytes of a text are read back as the text, whatever characters it has.
-/

namespace RobotArena.Text

/-! ### Continuation bytes -/

theorem toNat_ofNat_byte {n : Nat} (small : n < 256) : (UInt8.ofNat n).toNat = n :=
  UInt8.toNat_ofNat_of_lt' small

theorem continuation_byte {x : Nat} (six : x < 64) {low high : UInt8}
    (allowed : low.toNat ≤ x + 128 ∧ x + 128 ≤ high.toNat) (n bits : Nat) (rest : List UInt8) :
    continuation (n + 1) low high bits (UInt8.ofNat (x + 128) :: rest) =
      continuation n 0x80 0xBF (bits * 64 + x) rest := by
  have value : (UInt8.ofNat (x + 128)).toNat = x + 128 := toNat_ofNat_byte (by omega)
  rw [continuation, if_pos, value, Nat.add_sub_cancel]
  simp only [UInt8.le_iff_toNat_le, value]
  exact allowed

theorem continuation_later {x : Nat} (six : x < 64) (n bits : Nat) (rest : List UInt8) :
    continuation (n + 1) 0x80 0xBF bits (UInt8.ofNat (x + 128) :: rest) =
      continuation n 0x80 0xBF (bits * 64 + x) rest := by
  refine continuation_byte six ⟨?_, ?_⟩ n bits rest
  · show 128 ≤ x + 128
    omega
  · show x + 128 ≤ 191
    omega

/-! ### Lead bytes -/

theorem scalar_lead {n : Nat} (large : 128 ≤ n) (small : n < 256) {lead : Lead}
    (announced : Lead.ofByte? (UInt8.ofNat n) = some lead) (bytes : List UInt8) :
    scalar (UInt8.ofNat n) bytes =
      continuation lead.following lead.low lead.high lead.bits bytes := by
  have value : (UInt8.ofNat n).toNat = n := toNat_ofNat_byte small
  unfold scalar
  rw [if_neg, announced]
  rw [UInt8.lt_iff_toNat_lt, value]
  show ¬ n < 128
  omega

theorem lead_two {n : Nat} (low : 0xC2 ≤ n) (high : n < 0xE0) :
    Lead.ofByte? (UInt8.ofNat n) = some ⟨1, 0x80, 0xBF, n - 0xC0⟩ := by
  have value : (UInt8.ofNat n).toNat = n := toNat_ofNat_byte (by omega)
  unfold Lead.ofByte?
  simp only [value]
  rw [if_neg (by omega), if_pos high]

/-- The range of the first continuation byte of a sequence of three. -/
def secondOfThree (n : Nat) : UInt8 × UInt8 :=
  if n = 0 then (0xA0, 0xBF) else if n = 13 then (0x80, 0x9F) else (0x80, 0xBF)

theorem lead_three {n : Nat} (small : n < 16) :
    Lead.ofByte? (UInt8.ofNat (n + 0xE0)) =
      some ⟨2, (secondOfThree n).1, (secondOfThree n).2, n⟩ := by
  have cases : n = 0 ∨ n = 13 ∨ n ≠ 0 ∧ n ≠ 13 := by omega
  have value : (UInt8.ofNat (n + 0xE0)).toNat = n + 0xE0 := toNat_ofNat_byte (by omega)
  rcases cases with rfl | rfl | ⟨first, surrogate⟩
  · rfl
  · rfl
  · unfold Lead.ofByte? secondOfThree
    simp only [value]
    rw [if_neg (by omega), if_neg (by omega), if_neg (by simpa using first),
      if_neg (by simp; omega), if_pos (by omega), if_neg first, if_neg surrogate,
      Nat.add_sub_cancel]

/-- The range of the first continuation byte of a sequence of four. -/
def secondOfFour (n : Nat) : UInt8 × UInt8 :=
  if n = 0 then (0x90, 0xBF) else if n = 4 then (0x80, 0x8F) else (0x80, 0xBF)

theorem lead_four {n : Nat} (small : n < 5) :
    Lead.ofByte? (UInt8.ofNat (n + 0xF0)) =
      some ⟨3, (secondOfFour n).1, (secondOfFour n).2, n⟩ := by
  have cases : n = 0 ∨ n = 1 ∨ n = 2 ∨ n = 3 ∨ n = 4 := by omega
  rcases cases with rfl | rfl | rfl | rfl | rfl <;> rfl

/-! ### Characters -/

theorem scalars_cons (b : UInt8) (bytes : List UInt8) :
    scalars (b :: bytes) = (scalar b bytes).1 :: scalars (scalar b bytes).2 := by
  rw [scalars]

/-- The code point of a character is no surrogate and not beyond the last one. -/
theorem toNat_valid (c : Char) : c.toNat < 0xD800 ∨ 0xDFFF < c.toNat ∧ c.toNat < 0x110000 :=
  c.valid

theorem scalars_encodeChar (c : Char) (rest : List UInt8) :
    scalars (String.utf8EncodeChar c ++ rest) = some c :: scalars rest := by
  have valid := toNat_valid c
  have back : Char.ofNat c.toNat = c := Char.ofNat_toNat c
  have point : c.val.toNat = c.toNat := rfl
  unfold String.utf8EncodeChar
  simp only [point]
  generalize c.toNat = v at valid back
  by_cases one : v ≤ 127
  · have value : (UInt8.ofNat v).toNat = v := toNat_ofNat_byte (by omega)
    rw [if_pos one, List.singleton_append, scalars_cons]
    unfold scalar
    rw [if_pos, value, back]
    rw [UInt8.lt_iff_toNat_lt, value]
    show v < 128
    omega
  rw [if_neg one]
  by_cases two : v ≤ 2047
  · have lead : v / 64 % 32 = v / 64 := by omega
    have bits : (v / 64 + 192 - 192) * 64 + v % 64 = v := by omega
    rw [if_pos two, lead, List.cons_append, List.singleton_append, scalars_cons,
      scalar_lead (by omega) (by omega) (lead_two (by omega) (by omega)),
      continuation_later (by omega), bits, continuation, back]
  rw [if_neg two]
  by_cases three : v ≤ 65535
  · have lead : v / 4096 % 16 = v / 4096 := by omega
    have bits : (v / 4096 * 64 + v / 64 % 64) * 64 + v % 64 = v := by omega
    have range : (secondOfThree (v / 4096)).1.toNat ≤ v / 64 % 64 + 128 ∧
        v / 64 % 64 + 128 ≤ (secondOfThree (v / 4096)).2.toNat := by
      unfold secondOfThree
      split
      · show 160 ≤ _ ∧ _ ≤ 191
        omega
      · split
        · show 128 ≤ _ ∧ _ ≤ 159
          omega
        · show 128 ≤ _ ∧ _ ≤ 191
          omega
    rw [if_pos three, lead, List.cons_append, List.cons_append, List.singleton_append, scalars_cons,
      scalar_lead (by omega) (by omega) (lead_three (by omega)), continuation_byte (by omega) range,
      continuation_later (by omega), bits, continuation, back]
  · have lead : v / 262144 % 8 = v / 262144 := by omega
    have bits : ((v / 262144 * 64 + v / 4096 % 64) * 64 + v / 64 % 64) * 64 + v % 64 = v := by omega
    have range : (secondOfFour (v / 262144)).1.toNat ≤ v / 4096 % 64 + 128 ∧
        v / 4096 % 64 + 128 ≤ (secondOfFour (v / 262144)).2.toNat := by
      unfold secondOfFour
      split
      · show 144 ≤ _ ∧ _ ≤ 191
        omega
      · split
        · show 128 ≤ _ ∧ _ ≤ 143
          omega
        · show 128 ≤ _ ∧ _ ≤ 191
          omega
    rw [if_neg three, lead, List.cons_append, List.cons_append, List.cons_append,
      List.singleton_append, scalars_cons,
      scalar_lead (by omega) (by omega) (lead_four (by omega)), continuation_byte (by omega) range,
      continuation_later (by omega), continuation_later (by omega), bits, continuation, back]

theorem scalars_encode (cs : List Char) : scalars (encode cs) = cs.map some := by
  induction cs with
  | nil => rw [encode, List.flatMap_nil, scalars, List.map_nil]
  | cons c cs ih =>
    have cut : encode (c :: cs) = String.utf8EncodeChar c ++ encode cs := rfl
    rw [cut, scalars_encodeChar, ih, List.map_cons]

/-- The bytes of a text are read back as the text. -/
theorem decodeLossy_encode (cs : List Char) : decodeLossy (encode cs) = cs := by
  rw [decodeLossy, scalars_encode, List.map_map]
  exact List.map_id cs

end RobotArena.Text
