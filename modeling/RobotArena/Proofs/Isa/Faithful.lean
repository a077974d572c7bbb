import Mathlib.Tactic.SplitIfs
import RobotArena.Proofs.Isa.Encoding

/-!
# Programs and the instructions they stand for

Every block of whole words is a program. A word that can be read is the encoding of what is read
from it, so the bytes of a program and the instructions in it determine each other.
-/

namespace RobotArena

namespace Opcode

theorem code_all (n : Fin all.size) : all[n].code.toNat = n.val := by
  revert n
  decide

theorem code_of_ofCode? {b : UInt8} {op : Opcode} (known : ofCode? b = some op) : op.code = b := by
  obtain ⟨inside, rfl⟩ := Array.getElem?_eq_some_iff.mp known
  exact UInt8.toNat_inj.mp (code_all ⟨b.toNat, inside⟩)

theorem ofCode?_eq_none_iff {b : UInt8} : ofCode? b = none ↔ 38 < b.toNat :=
  Array.getElem?_eq_none_iff

end Opcode

namespace Instruction

/-- What is wrong with the first four bytes of a word: an unknown code, or else the first of the
three register numbers that names no register. -/
def fault? (code a b c : UInt8) : Option CodeError :=
  if 38 < code.toNat then some (.unknownOpcode code)
  else if 16 ≤ a.toNat then some (.invalidRegister a)
  else if 16 ≤ b.toNat then some (.invalidRegister b)
  else if 16 ≤ c.toNat then some (.invalidRegister c)
  else none

variable (code a b c : UInt8) (imm : UInt32)

theorem fault?_eq_none_iff : fault? code a b c = none ↔
    code.toNat ≤ 38 ∧ a.toNat < 16 ∧ b.toNat < 16 ∧ c.toNat < 16 := by
  unfold fault?
  split_ifs <;> simp only [true_iff, false_iff] <;> omega

theorem badRegister?_eq : badRegister? [a, b, c] =
    if 16 ≤ a.toNat then some a else if 16 ≤ b.toNat then some b
    else if 16 ≤ c.toNat then some c else none := by
  simp only [badRegister?, registerCount, List.find?_cons, List.find?_nil]
  grind

/-- The fields are refused with what is wrong with them, or else taken as they are. -/
theorem ofFields_spec :
    (∃ fault, fault? code a b c = some fault ∧ ofFields code a b c imm = .error fault) ∨
      ∃ op, Opcode.ofCode? code = some op ∧ fault? code a b c = none ∧
        ofFields code a b c imm = .ok ⟨op, a, b, c, imm.toInt32⟩ := by
  unfold ofFields fault?
  cases known : Opcode.ofCode? code with
  | none => exact .inl ⟨_, if_pos (Opcode.ofCode?_eq_none_iff.mp known), rfl⟩
  | some op =>
    have small : ¬ 38 < code.toNat := fun large => by
      rw [Opcode.ofCode?_eq_none_iff.mpr large] at known
      cases known
    rw [if_neg small, badRegister?_eq]
    split_ifs <;> simp

theorem ofFields_eq_error_iff (fault : CodeError) :
    ofFields code a b c imm = .error fault ↔ fault? code a b c = some fault := by
  obtain ⟨found, faulty, refused⟩ | ⟨op, _, fine, taken⟩ := ofFields_spec code a b c imm
  · rw [faulty, refused, Except.error.injEq, Option.some.injEq]
  · rw [fine, taken]
    exact ⟨nofun, nofun⟩

theorem ofFields_isOk_iff : (∃ i, ofFields code a b c imm = .ok i) ↔
    code.toNat ≤ 38 ∧ a.toNat < 16 ∧ b.toNat < 16 ∧ c.toNat < 16 := by
  rw [← fault?_eq_none_iff]
  obtain ⟨found, faulty, refused⟩ | ⟨op, _, fine, taken⟩ := ofFields_spec code a b c imm
  · simp [faulty, refused]
  · simp [fine, taken]

variable {code a b c imm}

theorem encode_of_ofFields {i : Instruction} (read : ofFields code a b c imm = .ok i) :
    i.encode = [code, a, b, c] ++ Word.toBytes imm := by
  obtain ⟨_, _, refused⟩ | ⟨op, known, _, taken⟩ := ofFields_spec code a b c imm
  · rw [refused] at read
    cases read
  · rw [taken] at read
    cases read
    rw [encode, Opcode.code_of_ofCode? known]
    dsimp only
    rw [UInt32.toUInt32_toInt32]
    rfl

/-- A word that can be read is the encoding of what is read from it. -/
theorem encode_of_decode {word : Vector UInt8 8} {i : Instruction} (read : decode word = .ok i) :
    i.encode = word.toList := by
  have fields : ofFields word[0] word[1] word[2] word[3]
      (Word.ofBytes word[4] word[5] word[6] word[7]) = .ok i := read
  rw [encode_of_ofFields fields, Word.toBytes_ofBytes]
  refine List.ext_getElem word.length_toList.symm fun n inside _ => ?_
  have small : n < 8 := inside
  rcases eight_places small with rfl | rfl | rfl | rfl | rfl | rfl | rfl | rfl <;> rfl

end Instruction

namespace Bytecode

variable {code : Bytecode} {bytes : Array UInt8}

theorem ofBytes_isOk_iff : (∃ code, ofBytes bytes = .ok code) ↔ bytes.size % 8 = 0 := by
  unfold ofBytes
  split
  · rename_i whole
    exact ⟨fun _ => whole, fun _ => ⟨_, rfl⟩⟩
  · rename_i broken
    exact ⟨fun ⟨_, accepted⟩ => (nomatch accepted), fun whole => absurd whole broken⟩

theorem bytes_of_ofBytes (accepted : ofBytes bytes = .ok code) : code.bytes = bytes := by
  unfold ofBytes at accepted
  split at accepted <;> cases accepted
  rfl

/-- Where a program has eight bytes left, they are the word there, and elsewhere it has none. -/
theorem word?_spec (code : Bytecode) (index : Nat) :
    (8 * index + 8 ≤ code.bytes.size ∧ ∃ word : Vector UInt8 8,
      word.toList = (code.bytes.toList.drop (8 * index)).take 8 ∧ code.word? index = some word) ∨
    code.bytes.size < 8 * index + 8 ∧ code.word? index = none := by
  unfold word?
  simp only [Instruction.size, Nat.mul_comm index 8]
  split
  · rename_i room
    refine .inl ⟨by omega, _, List.ext_getElem (by simp; omega) fun n inside _ => ?_, rfl⟩
    rw [List.getElem_take, List.getElem_drop, Array.getElem_toList]
    have small : n < 8 := inside
    rcases Instruction.eight_places small with rfl | rfl | rfl | rfl | rfl | rfl | rfl | rfl <;> rfl
  · exact .inr ⟨by omega, rfl⟩

variable (code) in
/-- A program is read word by word: at each place stands what its eight bytes say. -/
theorem fetch_spec (pc : UInt32) :
    (8 * pc.toNat + 8 ≤ code.bytes.size ∧ ∃ word : Vector UInt8 8,
      word.toList = (code.bytes.toList.drop (8 * pc.toNat)).take 8 ∧
        code.fetch pc = some (Instruction.decode word)) ∨
    code.bytes.size < 8 * pc.toNat + 8 ∧ code.fetch pc = none := by
  unfold fetch
  obtain ⟨room, word, bytes, found⟩ | ⟨past, none⟩ := code.word?_spec pc.toNat
  · exact .inl ⟨room, word, bytes, congrArg (Option.map Instruction.decode) found⟩
  · exact .inr ⟨past, congrArg (Option.map Instruction.decode) none⟩

/-- An instruction that is fetched has the eight bytes that stand at its place. -/
theorem encode_of_fetch {pc : UInt32} {i : Instruction} (fetched : code.fetch pc = some (.ok i)) :
    8 * pc.toNat + 8 ≤ code.bytes.size ∧
      i.encode = (code.bytes.toList.drop (8 * pc.toNat)).take 8 := by
  obtain ⟨room, word, bytes, found⟩ | ⟨_, none⟩ := code.fetch_spec pc
  · rw [found] at fetched
    rw [← bytes]
    exact ⟨room, Instruction.encode_of_decode (Option.some.inj fetched)⟩
  · rw [none] at fetched
    cases fetched

/-- What is made of instructions reads back as they are and ends where they end. Bytes are a
program exactly if they are whole words. It consists of these bytes, and at each place where eight of
them stand it has what they are read as, and nothing beyond. A word is read exactly if its code and
its registers exist and is otherwise refused for the first that does not, and what is read has the
bytes it was read from. -/
theorem bytes_and_instructions_agree :
    (∀ is : List Instruction,
      (∀ i ∈ is, i.a.toNat < 16 ∧ i.b.toNat < 16 ∧ i.c.toNat < 16) → ∀ pc : UInt32,
        (∀ inside : pc.toNat < is.length,
          (ofInstructions is).fetch pc = some (.ok is[pc.toNat])) ∧
        (is.length ≤ pc.toNat → (ofInstructions is).fetch pc = none)) ∧
    (∀ bytes : Array UInt8, (∃ code, ofBytes bytes = .ok code) ↔ bytes.size % 8 = 0) ∧
    (∀ b₀ b₁ b₂ b₃ b₄ b₅ b₆ b₇ : UInt8,
      ((∃ i, Instruction.decode #v[b₀, b₁, b₂, b₃, b₄, b₅, b₆, b₇] = .ok i) ↔
        b₀.toNat ≤ 38 ∧ b₁.toNat < 16 ∧ b₂.toNat < 16 ∧ b₃.toNat < 16) ∧
      ∀ fault, Instruction.decode #v[b₀, b₁, b₂, b₃, b₄, b₅, b₆, b₇] = .error fault ↔
        Instruction.fault? b₀ b₁ b₂ b₃ = some fault) ∧
    ∀ (bytes : Array UInt8) (code : Bytecode), ofBytes bytes = .ok code →
      code.bytes = bytes ∧ ∀ pc : UInt32,
        (8 * pc.toNat + 8 ≤ bytes.size → ∃ word : Vector UInt8 8,
          word.toList = (bytes.toList.drop (8 * pc.toNat)).take 8 ∧
            code.fetch pc = some (Instruction.decode word)) ∧
        (bytes.size < 8 * pc.toNat + 8 → code.fetch pc = none) ∧
        ∀ i, code.fetch pc = some (.ok i) →
          8 * pc.toNat + 8 ≤ bytes.size ∧ i.encode = (bytes.toList.drop (8 * pc.toNat)).take 8 := by
  refine ⟨fun is registers pc => ?_, fun bytes => ofBytes_isOk_iff,
    fun b₀ b₁ b₂ b₃ _ _ _ _ => ⟨Instruction.ofFields_isOk_iff b₀ b₁ b₂ b₃ _,
      Instruction.ofFields_eq_error_iff b₀ b₁ b₂ b₃ _⟩, ?_⟩
  · have valid : ∀ i ∈ is, i.Valid := fun i member =>
      ⟨(registers i member).1, (registers i member).2.1, (registers i member).2.2⟩
    rw [fetch_ofInstructions is valid]
    refine ⟨fun inside => ?_, fun past => ?_⟩
    · rw [List.getElem?_eq_getElem inside, Option.map_some]
    · rw [List.getElem?_eq_none past, Option.map_none]
  · intro bytes code accepted
    obtain rfl := bytes_of_ofBytes accepted
    refine ⟨rfl, fun pc => ⟨fun room => ?_, fun past => ?_, fun i => encode_of_fetch⟩⟩
    · obtain ⟨_, word⟩ | ⟨past, _⟩ := code.fetch_spec pc
      · exact word
      · exact absurd room (Nat.not_le_of_lt past)
    · obtain ⟨room, _⟩ | ⟨_, none⟩ := code.fetch_spec pc
      · exact absurd room (Nat.not_le_of_lt past)
      · exact none

/-- A program with a negative immediate, read back, and the program that its bytes make. -/
theorem negative_immediate_reads_back :
    (ofInstructions [⟨.addi, 3, 4, 0, -17⟩, ⟨.halt, 0, 0, 0, 0⟩]).fetch 0 =
        some (.ok ⟨.addi, 3, 4, 0, -17⟩) ∧
      (ofInstructions [⟨.addi, 3, 4, 0, -17⟩, ⟨.halt, 0, 0, 0, 0⟩]).fetch 2 = none ∧
      (Instruction.mk .addi 3 4 0 (-17)).encode = [5, 3, 4, 0, 239, 255, 255, 255] ∧
      ∃ code, ofBytes #[5, 3, 4, 0, 239, 255, 255, 255] = .ok code ∧
        code.bytes = #[5, 3, 4, 0, 239, 255, 255, 255] ∧
        code.fetch 0 = some (.ok ⟨.addi, 3, 4, 0, -17⟩) ∧ code.fetch 1 = none := by
  have agree := bytes_and_instructions_agree
  have read := agree.1 [⟨.addi, 3, 4, 0, -17⟩, ⟨.halt, 0, 0, 0, 0⟩] (by decide)
  obtain ⟨code, accepted⟩ := (agree.2.1 #[5, 3, 4, 0, 239, 255, 255, 255]).mpr rfl
  obtain ⟨bytes, there⟩ := agree.2.2.2 _ code accepted
  obtain ⟨word, eight, fetched⟩ := (there 0).1 (by decide)
  have first : word = #v[5, 3, 4, 0, 239, 255, 255, 255] := Vector.toList_inj.mp eight
  rw [first] at fetched
  exact ⟨(read 0).1 (by decide), (read 2).2 (by decide), ((there 0).2.2 _ fetched).2, code, accepted, bytes,
    fetched, (there 1).2.1 (by decide)⟩

end Bytecode

end RobotArena
