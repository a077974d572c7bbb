import RobotArena.Assembly.Symbol
import RobotArena.Proofs.Isa.Encoding

/-!
# What an instruction line is read as

Every instruction that is read from a line has registers that exist. A call of an external function
that is not written as a number gets the number under which the function's name is known.
-/

namespace RobotArena.Assembly

/-- The operand of a line that calls an external function, as it is written. -/
def calledFunction? (code : List Char) : Option (List Char) :=
  match Opcode.ofMnemonic? (String.ofList ((Text.cutAtBlank code).1.map Char.toLower)),
    Scope.operandTokens (Text.cutAtBlank code).2 with
  | some .ext, [token] => some token
  | _, _ => none

namespace Scope

variable {scope : Scope} {i i' : Instruction}

theorem map_eq_ok {ε α β : Type} {x : Except ε α} {f : α → β} {b : β} (h : f <$> x = .ok b) :
    ∃ a, x = .ok a ∧ f a = b := by
  cases x with
  | error e => cases h
  | ok a =>
    cases h
    exact ⟨a, rfl, rfl⟩

theorem register_lt {token : List Char} {r : UInt8} (h : register token = .ok r) :
    r.toNat < registerCount := by
  unfold register readRegister? at h
  split at h
  · rename_i index read
    cases h
    split at read
    · obtain ⟨n, _, kept⟩ := Option.bind_eq_some_iff.mp read
      split at kept
      · rename_i small
        cases kept
        simp only [registerCount] at small ⊢
        rw [UInt8.toNat_ofNat', Nat.mod_eq_of_lt (by omega)]
        exact small
      · cases kept
    · cases read
  · cases h

theorem fill_valid {slot : Operand × List Char} (valid : i.Valid) (h : scope.fill i slot = .ok i') :
    i'.Valid ∧ i'.op = i.op := by
  obtain ⟨operand, token⟩ := slot
  cases operand <;> simp only [fill, bind_pure_comp] at h <;>
    obtain ⟨v, read, rfl⟩ := map_eq_ok h
  case a => exact ⟨⟨register_lt read, valid.b, valid.c⟩, rfl⟩
  case b => exact ⟨⟨valid.a, register_lt read, valid.c⟩, rfl⟩
  case c => exact ⟨⟨valid.a, valid.b, register_lt read⟩, rfl⟩
  case immediate => exact ⟨⟨valid.a, valid.b, valid.c⟩, rfl⟩
  case function => exact ⟨⟨valid.a, valid.b, valid.c⟩, rfl⟩

theorem foldlM_fill_valid {slots : List (Operand × List Char)} (valid : i.Valid)
    (h : slots.foldlM scope.fill i = .ok i') : i'.Valid ∧ i'.op = i.op := by
  induction slots generalizing i with
  | nil =>
    cases h
    exact ⟨valid, rfl⟩
  | cons slot rest ih =>
    rw [List.foldlM_cons] at h
    cases filled : scope.fill i slot with
    | error fault => rw [filled] at h; cases h
    | ok next =>
      rw [filled] at h
      obtain ⟨validNext, sameNext⟩ := fill_valid valid filled
      obtain ⟨validLast, sameLast⟩ := ih validNext h
      exact ⟨validLast, sameLast.trans sameNext⟩

/-- What is known of a line that is read as an instruction: its word is the operation's, it has as
many operands as the operation takes, and they fill in the fields. -/
theorem instruction_eq_ok {code : List Char} (h : scope.instruction code = .ok i) :
    Opcode.ofMnemonic? (String.ofList ((Text.cutAtBlank code).1.map Char.toLower)) = some i.op ∧
      i.Valid ∧
      (operandTokens (Text.cutAtBlank code).2).length = i.op.operands.length ∧
      (i.op.operands.zip (operandTokens (Text.cutAtBlank code).2)).foldlM scope.fill { op := i.op } =
        .ok i := by
  unfold instruction at h
  dsimp only at h
  cases known : Opcode.ofMnemonic? (String.ofList ((Text.cutAtBlank code).1.map Char.toLower)) with
  | none => simp only [known] at h; cases h
  | some op =>
    simp only [known] at h
    split at h
    · rename_i count
      have zero : (0 : UInt8).toNat < registerCount := by decide
      obtain ⟨valid, same⟩ := foldlM_fill_valid ⟨zero, zero, zero⟩ h
      rw [same]
      exact ⟨rfl, valid, count, h⟩
    · cases h

/-- A line is read as a call exactly if it is written as one, and the call's number is what the
operand means. -/
theorem instruction_ext {code : List Char} (h : scope.instruction code = .ok i) :
    (i.op = .ext → ∃ token, calledFunction? code = some token) ∧
      ∀ token, calledFunction? code = some token →
        i.op = .ext ∧ scope.function token = .ok i.imm := by
  obtain ⟨word, _, count, filled⟩ := instruction_eq_ok h
  refine ⟨fun ext => ?_, fun token called => ?_⟩
  · rw [ext] at word count
    obtain ⟨token, only⟩ := List.length_eq_one_iff.mp count
    exact ⟨token, by rw [calledFunction?, word, only]⟩
  · unfold calledFunction? at called
    rw [word] at called
    split at called
    · rename_i token' ext only
      cases called
      have ext : i.op = .ext := Option.some.inj ext
      refine ⟨ext, ?_⟩
      rw [ext, only] at filled
      simp only [Opcode.operands, List.zip_cons_cons, List.zip_nil_right, List.foldlM_cons,
        List.foldlM_nil, bind_pure, fill, bind_pure_comp] at filled
      obtain ⟨v, read, same⟩ := map_eq_ok filled
      rw [read, ← same]
    · cases called

theorem function_named {token : List Char} {v : Int32} (named : readInteger? token = none)
    (h : scope.function token = .ok v) :
    ∃ signature ∈ scope.externals, signature.name = String.ofList token ∧
      v = Int32.ofNat signature.id.toNat := by
  unfold function at h
  rw [named] at h
  dsimp only at h
  split at h
  · rename_i signature found
    cases h
    have name := List.find?_some found
    exact ⟨signature, List.mem_of_find?_eq_some found, by simpa using name, rfl⟩
  · cases h

end Scope

end RobotArena.Assembly
