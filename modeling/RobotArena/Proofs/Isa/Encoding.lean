import RobotArena.Isa.Bytecode

/-!
# Instructions and their bytes

An instruction whose register fields name registers is read back from its bytes, and instruction
number `n` of a program is read from the bytes that the program has at that place.
-/

namespace RobotArena

/-- The register fields name registers. -/
structure Instruction.Valid (i : Instruction) : Prop where
  a : i.a.toNat < registerCount
  b : i.b.toNat < registerCount
  c : i.c.toNat < registerCount

namespace Instruction

/-- The places in a word. A byte is named by its place, so what is said of every byte is shown of each. -/
theorem eight_places {k : Nat} (small : k < 8) :
    k = 0 ∨ k = 1 ∨ k = 2 ∨ k = 3 ∨ k = 4 ∨ k = 5 ∨ k = 6 ∨ k = 7 := by
  omega

/-- The bytes of an instruction. -/
def bytes (i : Instruction) : Vector UInt8 8 :=
  ⟨i.encode.toArray, rfl⟩

theorem badRegister?_eq_none {i : Instruction} (valid : i.Valid) :
    badRegister? [i.a, i.b, i.c] = none := by
  have a := valid.a
  have b := valid.b
  have c := valid.c
  simp [badRegister?, List.find?_eq_none]
  omega

theorem decode_bytes {i : Instruction} (valid : i.Valid) : decode i.bytes = .ok i := by
  have word : Word.ofBytes i.imm.toUInt32.toUInt8 (i.imm.toUInt32 >>> 8).toUInt8
      (i.imm.toUInt32 >>> 16).toUInt8 (i.imm.toUInt32 >>> 24).toUInt8 = i.imm.toUInt32 :=
    Word.ofBytes_toUInt8 i.imm.toUInt32
  show ofFields i.op.code i.a i.b i.c _ = .ok i
  unfold ofFields
  rw [Opcode.ofCode?_code]
  dsimp only
  rw [badRegister?_eq_none valid]
  simp only [bytes, encode, Word.toBytes]
  exact congrArg Except.ok (congrArg (Instruction.mk i.op i.a i.b i.c)
    ((congrArg UInt32.toInt32 word).trans i.imm.toInt32_toUInt32))

theorem valid_of_decode {bytes : Vector UInt8 8} {i : Instruction} (h : decode bytes = .ok i) :
    i.Valid := by
  unfold decode ofFields at h
  split at h
  · cases h
  · split at h
    · cases h
    · rename_i good
      cases h
      simp [badRegister?, List.find?_eq_none] at good
      exact ⟨good.1, good.2.1, good.2.2⟩

end Instruction

namespace Bytecode

theorem valid_of_fetch {code : Bytecode} {pc : UInt32} {i : Instruction}
    (h : code.fetch pc = some (.ok i)) : i.Valid := by
  obtain ⟨bytes, _, read⟩ := Option.map_eq_some_iff.mp h
  exact Instruction.valid_of_decode read

variable (is : List Instruction) (n : Nat)

/-- Eight bytes for each instruction, so byte `k` of instruction `n` stands at `8 * n + k`. -/
theorem getElem?_flatMap_encode {k : Nat} (small : k < Instruction.size) :
    (is.flatMap Instruction.encode)[n * Instruction.size + k]? =
      is[n]?.bind fun i => i.encode[k]? := by
  induction is generalizing n with
  | nil => simp
  | cons i rest ih =>
    rw [List.flatMap_cons]
    cases n with
    | zero =>
      rw [Nat.zero_mul, Nat.zero_add, List.getElem?_append_left (by rw [length_encode]; exact small)]
      rfl
    | succ n =>
      have past : i.encode.length ≤ (n + 1) * Instruction.size + k := by
        rw [length_encode, Nat.succ_mul]; omega
      have left : (n + 1) * Instruction.size + k - i.encode.length = n * Instruction.size + k := by
        rw [length_encode, Nat.succ_mul]; omega
      rw [List.getElem?_append_right past, left, ih, List.getElem?_cons_succ]

theorem length_ofInstructions : (ofInstructions is).length = is.length := by
  unfold length ofInstructions
  rw [List.size_toArray, length_flatMap_encode]
  exact Nat.mul_div_cancel _ (by decide)

theorem word?_ofInstructions : (ofInstructions is).word? n = is[n]?.map Instruction.bytes := by
  have size : (ofInstructions is).bytes.size = is.length * 8 := by
    show (is.flatMap Instruction.encode).toArray.size = _
    rw [List.size_toArray, length_flatMap_encode]
    rfl
  unfold word?
  by_cases inside : n < is.length
  · have room : n * Instruction.size + 7 < (ofInstructions is).bytes.size := by
      rw [size]; simp only [Instruction.size]; omega
    have byte : ∀ k (small : k < 8) (h : n * Instruction.size + k < (ofInstructions is).bytes.size),
        (ofInstructions is).bytes[n * Instruction.size + k] = is[n].bytes[k] := by
      intro k small h
      apply Option.some.inj
      rw [← Array.getElem?_eq_getElem h]
      show (is.flatMap Instruction.encode).toArray[n * Instruction.size + k]? = _
      rw [List.getElem?_toArray, getElem?_flatMap_encode is n small,
        List.getElem?_eq_getElem inside, Option.bind_some]
      exact List.getElem?_eq_getElem small
    rw [dif_pos room, List.getElem?_eq_getElem inside, Option.map_some]
    congr 1
    apply Vector.ext
    intro k small
    rcases Instruction.eight_places small with rfl | rfl | rfl | rfl | rfl | rfl | rfl | rfl <;>
      exact byte _ (by omega) _
  · have none : is[n]? = none := List.getElem?_eq_none (Nat.le_of_not_lt inside)
    rw [none, dif_neg (by rw [size]; simp only [Instruction.size]; omega)]
    rfl

theorem decode_word?_ofInstructions (valid : ∀ i ∈ is, i.Valid) :
    ((ofInstructions is).word? n).map Instruction.decode = is[n]?.map .ok := by
  rw [word?_ofInstructions, Option.map_map]
  cases found : is[n]? with
  | none => rfl
  | some i => exact congrArg some (Instruction.decode_bytes (valid i (List.mem_of_getElem? found)))

/-- A program of valid instructions gives each of them back where it stands, and nothing past the
end. -/
theorem fetch_ofInstructions (valid : ∀ i ∈ is, i.Valid) (pc : UInt32) :
    (ofInstructions is).fetch pc = is[pc.toNat]?.map .ok :=
  decode_word?_ofInstructions is pc.toNat valid

/-- Programs of different valid instructions are different. -/
theorem ofInstructions_inj {is js : List Instruction} (valid : ∀ i ∈ is, i.Valid)
    (valid' : ∀ i ∈ js, i.Valid) (same : ofInstructions is = ofInstructions js) : is = js := by
  refine List.ext_getElem? fun n => ?_
  have decoded : is[n]?.map (Except.ok : Instruction → Except CodeError Instruction) =
      js[n]?.map .ok := by
    rw [← decode_word?_ofInstructions is n valid, ← decode_word?_ofInstructions js n valid', same]
  exact Option.map_injective (fun _ _ => Except.ok.inj) decoded

end Bytecode

end RobotArena
