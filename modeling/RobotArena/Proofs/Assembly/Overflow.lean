import RobotArena.Proofs.Assembly.Constants
import RobotArena.Proofs.Assembly.Numerals

/-!
# Overflow in a compile

Integers are read in arithmetic of 64 bits. The main statement says which texts make it overflow:
those that evaluate the least integer of 64 bits, written with a minus sign behind `0x`, with one
more minus sign in front. Every other integer is exact when its range is checked.
-/

namespace RobotArena.Assembly

/-- A minus sign in front of the least integer of 64 bits. -/
def NegatesLeast (token : List Char) : Prop :=
  ∃ digits, token = '-' :: '0' :: 'x' :: '-' :: digits ∧ Hexadecimal digits (integerLimit + 1)

/-- Whether a token is read as an integer that 64 bits do not hold. -/
def exceeds (token : List Char) : Bool :=
  (readInteger? token).any exceedsLimit

section Tokens

variable {token body : List Char} {v : Int}

theorem SignedMagnitude.bounds (signed : SignedMagnitude body v) :
    -(integerLimit + 1) ≤ v ∧ v ≤ integerLimit := by
  cases signed with
  | plus denotes fits => omega
  | minus denotes fits => omega

theorem NegatesLeast.read (token : List Char) (negates : NegatesLeast token) :
    readInteger? token = some (integerLimit + 1) := by
  obtain ⟨digits, rfl, denotes⟩ := negates
  exact (readInteger?_iff _ _).mpr (.inr (.minus (.minus denotes (Nat.le_refl _))))

/-- All that is read fits in 64 bits, but for the least integer negated. -/
theorem bounds_of_readInteger? (read : readInteger? token = some v) :
    -(integerLimit + 1) ≤ v ∧ v ≤ integerLimit ∨ v = integerLimit + 1 ∧ NegatesLeast token := by
  rcases (readInteger?_iff token v).mp read with form | signed
  · left
    cases form with
    | plain magnitude fits => omega
    | minus magnitude fits => omega
  · cases signed with
    | plain signed => exact .inl signed.bounds
    | minus signed =>
      cases signed with
      | plus denotes fits => omega
      | @minus digits n denotes fits =>
        rcases Nat.lt_or_eq_of_le fits with below | rfl
        · omega
        · exact .inr ⟨by omega, digits, rfl, denotes⟩

theorem exceeds_iff (token : List Char) : exceeds token = true ↔ NegatesLeast token := by
  unfold exceeds exceedsLimit
  rw [Option.any_eq_true]
  constructor
  · rintro ⟨v, read, above⟩
    rcases bounds_of_readInteger? read with ⟨_, fits⟩ | ⟨_, negates⟩
    · exact absurd (of_decide_eq_true above) (by omega)
    · exact negates
  · intro negates
    exact ⟨_, negates.read, decide_eq_true (by omega)⟩

/-- Sixty-four bits hold an integer that is read exactly unless it is the least one negated. -/
theorem toInt_ofInt_iff (read : readInteger? token = some v) :
    (Int64.ofInt v).toInt = v ↔ ¬ NegatesLeast token := by
  constructor
  · intro held negates
    rw [negates.read] at read
    cases read
    exact absurd held (by decide)
  · intro other
    rcases bounds_of_readInteger? read with ⟨low, high⟩ | ⟨_, negates⟩
    · unfold integerLimit at low high
      exact Int64.toInt_ofInt_of_le (by omega) (by omega)
    · exact absurd negates other

end Tokens

/-! ### What is evaluated -/

/-- An operand that is read as an integer first. -/
def takesInteger : Operand → Bool
  | .immediate | .function => true
  | .a | .b | .c => false

/-- The operand that is read as an integer, behind others that are registers. -/
def evaluatedOperand? : List (Operand × List Char) → Option (List Char)
  | [] => none
  | (operand, token) :: rest =>
    if takesInteger operand then some token
    else if (readRegister? token).isSome then evaluatedOperand? rest
    else none

/-- The operand of an instruction that is read as an integer. All operands are counted first. -/
def integerOperand? (code : List Char) : Option (List Char) :=
  (Opcode.ofMnemonic? (String.ofList ((Text.cutAtBlank code).1.map Char.toLower))).bind fun op =>
    let tokens := Scope.operandTokens (Text.cutAtBlank code).2
    if tokens.length = op.operands.length then evaluatedOperand? (op.operands.zip tokens) else none

/-- A line of code has a token that is read as an integer: the value of a constant, or the operand
of an instruction. -/
inductive Evaluates (code token : List Char) : Prop where
  | constant {name : List Char} (defines : codeConstant? code = some (name, token))
  | operand {held : List Char} (holds : codeInstruction? code = some held)
      (written : integerOperand? held = some token)

/-- Whether a result is a fault about an integer that 64 bits do not hold. -/
def hasOverflowed {α : Type} : Except Fault α → Bool
  | .ok _ => false
  | .error fault => fault.overflows

namespace Scope

variable {scope : Scope} {i : Instruction} {token code : List Char}

theorem hasOverflowed_map {α β : Type} (f : α → β) (x : Except Fault α) :
    hasOverflowed (f <$> x) = hasOverflowed x := by
  cases x <;> rfl

theorem hasOverflowed_immediate : hasOverflowed (scope.immediate token) = exceeds token := by
  unfold immediate exceeds
  split
  · rename_i n read
    rw [read, Option.any_some]
    split
    · simp only [hasOverflowed, Fault.overflows, String.toList_ofList, read, Option.any_some]
    · rename_i fits
      refine (decide_eq_false ?_).symm
      simp only [integerLimit]
      omega
  · rename_i noInteger
    rw [noInteger, Option.any_none]
    split
    · rfl
    · split <;> rfl

theorem hasOverflowed_function : hasOverflowed (scope.function token) = exceeds token := by
  unfold function exceeds
  split
  · rename_i n read
    rw [read, Option.any_some]
    split
    · rename_i fits
      refine (decide_eq_false ?_).symm
      simp only [integerLimit]
      omega
    · rfl
  · rename_i noInteger
    rw [noInteger, Option.any_none]
    split <;> rfl

theorem fill_register (scope : Scope) (i : Instruction) {operand : Operand}
    (register : takesInteger operand = false) :
    (∃ i', readRegister? token ≠ none ∧ scope.fill i (operand, token) = .ok i') ∨
      (readRegister? token = none ∧
        scope.fill i (operand, token) = .error (.invalidRegister (String.ofList token))) := by
  cases operand <;> simp only [fill, bind_pure_comp, Scope.register]
  case immediate => cases register
  case function => cases register
  all_goals
    cases readRegister? token with
    | none => exact .inr ⟨rfl, rfl⟩
    | some index => exact .inl ⟨_, Option.some_ne_none index, rfl⟩

theorem hasOverflowed_integer {operand : Operand} (integer : takesInteger operand = true) :
    hasOverflowed (scope.fill i (operand, token)) = exceeds token := by
  cases operand <;> simp only [fill, bind_pure_comp, hasOverflowed_map]
  case immediate => exact hasOverflowed_immediate
  case function => exact hasOverflowed_function
  all_goals cases integer

/-- Operands overflow where the one that is read as an integer does, if it is the last one. -/
theorem hasOverflowed_foldlM {pairs : List (Operand × List Char)}
    (last : pairs.Pairwise fun x _ => takesInteger x.1 = false) :
    hasOverflowed (pairs.foldlM scope.fill i) = (evaluatedOperand? pairs).any exceeds := by
  induction pairs generalizing i with
  | nil => rfl
  | cons pair rest ih =>
    obtain ⟨operand, token⟩ := pair
    obtain ⟨before, last⟩ := List.pairwise_cons.mp last
    rw [List.foldlM_cons, evaluatedOperand?]
    by_cases integer : takesInteger operand = true
    · rw [if_pos integer, Option.any_some]
      cases rest with
      | nil =>
        simp only [List.foldlM_nil, bind_pure]
        exact hasOverflowed_integer integer
      | cons next more =>
        have register := before next List.mem_cons_self
        exact absurd integer (by simpa using register)
    · rw [if_neg integer]
      rcases fill_register scope i (Bool.eq_false_iff.mpr integer) with
        ⟨i', known, filled⟩ | ⟨unknown, failed⟩
      · rw [filled, if_pos (Option.isSome_iff_ne_none.mpr known)]
        exact ih last
      · rw [failed, unknown]
        rfl

theorem operands_integer_last (op : Opcode) :
    op.operands.Pairwise fun operand _ => takesInteger operand = false := by
  cases op <;> decide

theorem hasOverflowed_instruction (code : List Char) :
    hasOverflowed (scope.instruction code) = (integerOperand? code).any exceeds := by
  unfold instruction integerOperand?
  dsimp only
  cases Opcode.ofMnemonic? (String.ofList ((Text.cutAtBlank code).1.map Char.toLower)) with
  | none => rfl
  | some op =>
    rw [Option.bind_some]
    dsimp only
    split
    · rename_i count
      have last := operands_integer_last op
      rw [← List.map_fst_zip (Nat.le_of_eq count.symm), List.pairwise_map] at last
      exact hasOverflowed_foldlM last
    · rfl

end Scope

/-! ### Both passes -/

namespace Survey

variable {s : Survey} {line : Line}

theorem overflowed_define (name : List Char) (symbol : Symbol) :
    (s.define line name symbol).overflowed = s.overflowed := by
  unfold define
  split
  · rfl
  · rename_i fault failed
    have other : fault.overflows = false := by
      unfold Symbols.define at failed
      dsimp only at failed
      split at failed
      · cases failed
        rfl
      · split at failed <;> cases failed
        rfl
    unfold reject
    rw [other, Bool.or_false]

theorem overflowed_labelled : (s.labelled line).overflowed = s.overflowed := by
  unfold labelled
  split
  · exact overflowed_define _ _
  · rfl

theorem overflowed_addString (rest : List Char) :
    (s.addString line rest).overflowed = s.overflowed := by
  have other : ∀ fault : Fault, fault.overflows = false →
      (s.reject line fault).overflowed = s.overflowed := by
    intro fault small
    unfold reject
    rw [small, Bool.or_false]
  unfold addString
  dsimp only
  split
  · split
    · exact other _ rfl
    · split
      · exact other _ rfl
      · exact overflowed_define _ _
  · exact other _ rfl

/-- A constant overflows where its value does. -/
theorem overflowed_addConstant {rest name value : List Char}
    (two : Text.words rest = [name, value]) :
    (s.addConstant line rest).overflowed = (s.overflowed || exceeds value) := by
  unfold addConstant
  rw [two]
  dsimp only
  rw [← s.scope.hasOverflowed_immediate]
  split
  · rename_i read
    rw [overflowed_define, read]
    exact (Bool.or_false _).symm
  · rename_i failed
    rw [failed]
    rfl

theorem overflowed_addConstant_malformed {rest : List Char}
    (other : ∀ name value, Text.words rest ≠ [name, value]) :
    (s.addConstant line rest).overflowed = s.overflowed := by
  unfold addConstant
  split
  · rename_i two
    exact absurd two (other _ _)
  · exact Bool.or_false _

theorem overflowed_addLine (line : Line) :
    (s.addLine line).overflowed =
      (s.overflowed || (codeConstant? line.text).any fun constant => exceeds constant.2) := by
  have early : s.overflowed = (s.labelled line).overflowed := overflowed_labelled.symm
  rw [addLine_eq, early]
  generalize s.labelled line = t
  unfold codeConstant? addCode
  split
  · rename_i empty
    rw [List.isEmpty_iff.mp empty]
    exact (Bool.or_false _).symm
  · split
    · rename_i rest starts
      rw [starts, Option.bind_some]
      split
      · rename_i two
        exact overflowed_addConstant two
      · rename_i other
        rw [Option.any_none, Bool.or_false]
        exact overflowed_addConstant_malformed other
    · rename_i starts
      rw [starts, Option.bind_none, Option.any_none, Bool.or_false]
      split
      · exact overflowed_addString _
      · split
        · exact Bool.or_false _
        · rfl

theorem overflowed_foldl (lines : List Line) :
    (lines.foldl addLine s).overflowed = (s.overflowed || lines.any fun line =>
      (codeConstant? line.text).any fun constant => exceeds constant.2) := by
  induction lines generalizing s with
  | nil => exact (Bool.or_false _).symm
  | cons line rest ih =>
    rw [List.foldl_cons, ih, overflowed_addLine, List.any_cons, Bool.or_assoc]

end Survey

theorem overflowed_foldl_addSlot (files : Array String) (scope : Scope) (slots : List Slot)
    (out : Assembled) : (slots.foldl (Assembled.addSlot files scope) out).overflowed =
      (out.overflowed || slots.any fun slot => (integerOperand? slot.code).any exceeds) := by
  induction slots generalizing out with
  | nil => exact (Bool.or_false _).symm
  | cons slot rest ih =>
    have step : (out.addSlot files scope slot).overflowed =
        (out.overflowed || (integerOperand? slot.code).any exceeds) := by
      rw [← scope.hasOverflowed_instruction]
      unfold Assembled.addSlot
      cases scope.instruction slot.code with
      | ok i => exact (Bool.or_false _).symm
      | error fault => rfl
    rw [List.foldl_cons, ih, step, List.any_cons, Bool.or_assoc]

/-- A compile overflows exactly if a line evaluates the least integer negated. -/
theorem overflowed_encode (externals : List Signature) (e : Expansion) :
    (Survey.ofExpansion externals e).encode.overflowed = true ↔
      ∃ line ∈ e.lines.toList, ∃ token, Evaluates line.text token ∧ NegatesLeast token := by
  have constants : (Survey.ofExpansion externals e).overflowed = e.lines.toList.any fun line =>
      (codeConstant? line.text).any fun constant => exceeds constant.2 := by
    unfold Survey.ofExpansion
    rw [← Array.foldl_toList, Survey.overflowed_foldl]
    rfl
  have slots : (Survey.ofExpansion externals e).slots.toList.map (·.code) =
      (e.lines.toList.map (·.text)).filterMap codeInstruction? := by
    unfold Survey.ofExpansion
    rw [← Array.foldl_toList]
    exact (Survey.slots_foldl _).trans (List.nil_append _)
  have operands : ((Survey.ofExpansion externals e).slots.toList.any fun slot =>
      (integerOperand? slot.code).any exceeds) =
        ((e.lines.toList.map (·.text)).filterMap codeInstruction?).any fun code =>
          (integerOperand? code).any exceeds := by
    rw [← slots, List.any_map]
    rfl
  unfold Survey.encode
  dsimp only
  rw [← Array.foldl_toList, overflowed_foldl_addSlot, constants, operands, Bool.or_eq_true]
  simp only [List.any_eq_true, Option.any_eq_true, exceeds_iff]
  constructor
  · rintro (⟨line, member, ⟨name, token⟩, defines, negates⟩ | ⟨held, found, token, written, negates⟩)
    · exact ⟨line, member, token, .constant defines, negates⟩
    · obtain ⟨code, inside, holds⟩ := List.mem_filterMap.mp found
      obtain ⟨line, member, rfl⟩ := List.mem_map.mp inside
      exact ⟨line, member, token, .operand holds written, negates⟩
  · rintro ⟨line, member, token, defines | ⟨holds, written⟩, negates⟩
    · exact .inl ⟨line, member, _, defines, negates⟩
    · have found := List.mem_filterMap.mpr ⟨_, List.mem_map_of_mem member, holds⟩
      exact .inr ⟨_, found, token, written, negates⟩

/-! ### Compiles -/

theorem compileChecked?_eq_none_iff (externals : List Signature) (texts : Texts) (root : String)
    (text : List UInt8) :
    compileChecked? externals texts root text = none ↔
      overflows externals (expand texts root text) = true := by
  unfold compileChecked?
  dsimp only
  split
  · rename_i lost
    exact iff_of_true rfl lost
  · rename_i within
    exact iff_of_false nofun within

/-- A compile in 64 bits has no outcome exactly if all files are at hand and a line evaluates the
least integer negated, as the value of a constant or as the operand of an instruction. Otherwise it
has the outcome of the exact compile, and 64 bits hold exactly each integer whose range is checked.
Among all tokens only the least integer negated is read as something else than what it denotes. -/
theorem overflows_iff (externals : List Signature) (texts : Texts) (root : String)
    (text : List UInt8) :
    (compileChecked? externals texts root text = none ↔
        (expand texts root text).missing = false ∧
          ∃ line ∈ (expand texts root text).lines.toList, ∃ token,
            Evaluates line.text token ∧ NegatesLeast token) ∧
      (∀ outcome, compileChecked? externals texts root text = some outcome →
        outcome = compile externals texts root text ∧
          ((expand texts root text).missing = false →
            ∀ line ∈ (expand texts root text).lines.toList, ∀ token v,
              Evaluates line.text token → readInteger? token = some v →
                (Int64.ofInt v).toInt = v)) ∧
      ∀ token v, readInteger? token = some v →
        ((Int64.ofInt v).toInt = v ↔ ¬ NegatesLeast token) := by
  have none_iff : compileChecked? externals texts root text = none ↔
      (expand texts root text).missing = false ∧
        ∃ line ∈ (expand texts root text).lines.toList, ∃ token,
          Evaluates line.text token ∧ NegatesLeast token := by
    rw [compileChecked?_eq_none_iff, overflows, Bool.and_eq_true, Bool.not_eq_true',
      overflowed_encode]
  refine ⟨none_iff, fun outcome returned => ⟨?_, fun complete line member token v evaluated read => ?_⟩,
    fun token v read => toInt_ofInt_iff read⟩
  · unfold compileChecked? at returned
    dsimp only at returned
    split at returned
    · cases returned
    · exact (Option.some.inj returned).symm
  · refine (toInt_ofInt_iff read).mpr fun negates => ?_
    rw [none_iff.mpr ⟨complete, line, member, token, evaluated, negates⟩] at returned
    cases returned

/-- A program that loads an operand. -/
def loadText (operand : String) : List UInt8 :=
  Text.toBytes ("li r1, " ++ operand ++ "\nhalt\n")

theorem least_integer_is_read_exactly :
    ∃ outcome, compileChecked? [] [] "main.asm" (loadText "0x-8000000000000000") = some outcome ∧
      outcome = compile [] [] "main.asm" (loadText "0x-8000000000000000") := by
  have returns :
      (compileChecked? [] [] "main.asm" (loadText "0x-8000000000000000")).isSome = true := by
    decide +kernel
  obtain ⟨outcome, returned⟩ := Option.isSome_iff_exists.mp returns
  exact ⟨outcome, returned, ((overflows_iff [] [] "main.asm" _).2.1 outcome returned).1⟩

theorem least_integer_negated_overflows :
    compileChecked? [] [] "main.asm" (loadText "-0x-8000000000000000") = none := by
  have fails :
      (compileChecked? [] [] "main.asm" (loadText "-0x-8000000000000000")).isNone = true := by
    decide +kernel
  exact Option.isNone_iff_eq_none.mp fails

end RobotArena.Assembly
