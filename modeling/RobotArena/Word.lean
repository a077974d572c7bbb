/-!
# Words and their bytes

A word of 32 bits is stored as four bytes, the lowest first.
-/

namespace RobotArena.Word

/-- The four bytes of a word, the lowest first. -/
def toBytes (w : UInt32) : List UInt8 :=
  [w.toUInt8, (w >>> 8).toUInt8, (w >>> 16).toUInt8, (w >>> 24).toUInt8]

/-- The word with the given bytes, the lowest first. -/
def ofBytes (b₀ b₁ b₂ b₃ : UInt8) : UInt32 :=
  b₀.toUInt32 ||| (b₁.toUInt32 <<< 8) ||| (b₂.toUInt32 <<< 16) ||| (b₃.toUInt32 <<< 24)

/-- Word number `index` of a block of bytes; zero if the block does not hold all of it. -/
def ofBlock (block : List UInt8) (index : Nat) : UInt32 :=
  match block.drop (4 * index) with
  | b₀ :: b₁ :: b₂ :: b₃ :: _ => ofBytes b₀ b₁ b₂ b₃
  | _ => 0

theorem length_toBytes (w : UInt32) : (toBytes w).length = 4 := rfl

theorem ofBytes_toUInt8 (w : UInt32) :
    ofBytes w.toUInt8 (w >>> 8).toUInt8 (w >>> 16).toUInt8 (w >>> 24).toUInt8 = w := by
  apply UInt32.eq_of_toBitVec_eq
  simp only [ofBytes, UInt32.toBitVec_or, UInt32.toBitVec_shiftLeft, UInt8.toBitVec_toUInt32,
    UInt32.toBitVec_toUInt8, UInt32.toBitVec_shiftRight]
  apply BitVec.eq_of_getLsbD_eq
  intro i hi
  have h : i < 8 ∨ (8 ≤ i ∧ i < 16) ∨ (16 ≤ i ∧ i < 24) ∨ 24 ≤ i := by omega
  rcases h with h | ⟨low, high⟩ | ⟨low, high⟩ | low
  · have h16 : i < 16 := by omega
    have h24 : i < 24 := by omega
    simp [hi, h, h16, h24]
  · have h8 : ¬ i < 8 := by omega
    have h24 : i < 24 := by omega
    have first : i - 8 < 8 := by omega
    have same : 8 + (i - 8) = i := by omega
    simp [hi, h8, high, h24, first, same]
  · have h8 : ¬ i < 8 := by omega
    have h16 : ¬ i < 16 := by omega
    have first : ¬ i - 8 < 8 := by omega
    have second : i - 16 < 8 := by omega
    have same : 16 + (i - 16) = i := by omega
    simp [hi, h8, h16, high, first, second, same]
  · have h8 : ¬ i < 8 := by omega
    have h16 : ¬ i < 16 := by omega
    have h24 : ¬ i < 24 := by omega
    have first : ¬ i - 8 < 8 := by omega
    have second : ¬ i - 16 < 8 := by omega
    have third : i - 24 < 8 := by omega
    have same : 24 + (i - 24) = i := by omega
    simp [hi, h8, h16, h24, first, second, third, same]

/-- A word made of four bytes has these bytes. -/
theorem toBytes_ofBytes (b₀ b₁ b₂ b₃ : UInt8) : toBytes (ofBytes b₀ b₁ b₂ b₃) = [b₀, b₁, b₂, b₃] := by
  have byte : ∀ {w : UInt32} {b : UInt8}, (∀ i, i < 8 → w.toBitVec.getLsbD i = b.toBitVec.getLsbD i) →
      w.toUInt8 = b := by
    intro w b same
    apply UInt8.eq_of_toBitVec_eq
    apply BitVec.eq_of_getLsbD_eq
    intro i small
    simpa [small] using same i small
  have beyond : ∀ (b : UInt8) (i : Nat), 8 ≤ i → b.toBitVec.getLsbD i = false :=
    fun b i large => BitVec.getLsbD_of_ge b.toBitVec i large
  have first : (ofBytes b₀ b₁ b₂ b₃).toUInt8 = b₀ := by
    refine byte fun i small => ?_
    have h16 : i < 16 := by omega
    have h24 : i < 24 := by omega
    have h32 : i < 32 := by omega
    simp [ofBytes, small, h16, h24, h32]
  have second : (ofBytes b₀ b₁ b₂ b₃ >>> 8).toUInt8 = b₁ := by
    refine byte fun i small => ?_
    have h16 : 8 + i < 16 := by omega
    have h24 : 8 + i < 24 := by omega
    have h32 : 8 + i < 32 := by omega
    simp [ofBytes, h16, h24, h32]
  have third : (ofBytes b₀ b₁ b₂ b₃ >>> 16).toUInt8 = b₂ := by
    refine byte fun i small => ?_
    have h16 : ¬ 16 + i < 16 := by omega
    have h24 : 16 + i < 24 := by omega
    have h32 : 16 + i < 32 := by omega
    simp [ofBytes, h16, h24, h32, beyond b₀ (16 + i) (by omega), beyond b₁ (16 + i - 8) (by omega)]
  have fourth : (ofBytes b₀ b₁ b₂ b₃ >>> 24).toUInt8 = b₃ := by
    refine byte fun i small => ?_
    have h24 : ¬ 24 + i < 24 := by omega
    have h32 : 24 + i < 32 := by omega
    simp [ofBytes, h24, h32, beyond b₀ (24 + i) (by omega), beyond b₁ (24 + i - 8) (by omega),
      beyond b₂ (24 + i - 16) (by omega)]
  rw [toBytes, first, second, third, fourth]

/-- The bytes of a word read back as the word. -/
theorem ofBlock_toBytes (w : UInt32) (rest : List UInt8) : ofBlock (toBytes w ++ rest) 0 = w :=
  ofBytes_toUInt8 w

end RobotArena.Word
