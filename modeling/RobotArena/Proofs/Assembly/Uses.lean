import RobotArena.Proofs.Assembly.Labels
import RobotArena.Proofs.Assembly.Tokens

/-!
# Lines with an immediate operand

An immediate operand stands last on its line. The main statement is what becomes of an instruction
when another operand is written in its place: only the immediate changes, to what the new operand
means.
-/

namespace RobotArena.Assembly

open Expansion

/-! ### How such a line is written -/

/-- What may stand in front of an immediate operand: nothing, or other operands and a comma. -/
inductive Fields : List Char → Prop
  | none : Fields []
  | some {others blanks} (plain : Plain others) (noColon : ':' ∉ others) (blank : Blanks blanks) :
      Fields (others ++ ',' :: blanks)

/-- A line that was written with one immediate operand, and the same line with another one. -/
inductive Replaced (old new : List Char) : List Char → List Char → Prop
  | intro {front word gap fields back op} (opening : Opening front)
      (mnemonic : Opcode.ofMnemonic? (String.ofList (word.map Char.toLower)) = some op)
      (takes : .immediate ∈ op.operands) (blankGap : Blanks gap) (apart : gap ≠ [])
      (others : Fields fields) (closing : Closing back) :
      Replaced old new (front ++ (word ++ (gap ++ (fields ++ old))) ++ back)
        (front ++ (word ++ (gap ++ (fields ++ new))) ++ back)

theorem mnemonic_letters (op : Opcode) :
    op.mnemonic.toList.all Char.isAlpha = true ∧ op.mnemonic ≠ "" := by
  cases op <;> decide

theorem isName_of_mnemonic {word : List Char} {op : Opcode}
    (mnemonic : Opcode.ofMnemonic? (String.ofList (word.map Char.toLower)) = some op) :
    isName word = true := by
  have same : op.mnemonic.toList = word.map Char.toLower := by
    unfold Opcode.ofMnemonic? at mnemonic
    have known := Array.find?_some mnemonic
    rw [beq_iff_eq] at known
    rw [known, String.toList_ofList]
  obtain ⟨letters, filled⟩ := mnemonic_letters op
  rw [same] at letters
  have alpha : ∀ c ∈ word, c.isAlpha = true := by
    intro c member
    exact isAlpha_of_toLower (List.all_eq_true.mp letters _ (List.mem_map_of_mem member))
  cases word with
  | nil => exact absurd (String.toList_inj.mp same) filled
  | cons c rest =>
    have start : isNameStart c = true := by simp [isNameStart, alpha c List.mem_cons_self]
    have later : rest.all isNameRest = true := by
      refine List.all_eq_true.mpr fun d member => ?_
      have letter := alpha d (List.mem_cons_of_mem _ member)
      have both : d.isAlphanum = true := by
        show (d.isAlpha || d.isDigit) = true
        rw [letter]
        rfl
      rw [isNameRest, both]
      rfl
    rw [isName, start, later]
    rfl

theorem blank_separates_words {c : Char} (blank : Text.isBlank c = true) :
    c ≠ ';' ∧ c ≠ '"' ∧ c ≠ ':' := by
  refine ⟨?_, ?_, ?_⟩ <;> rintro rfl <;> exact absurd blank (by decide)

section Code

variable {word gap fields operand : List Char}

theorem plain_fields (others : Fields fields) : ∀ c ∈ fields, c ≠ ';' ∧ c ≠ '"' ∧ c ≠ ':' := by
  cases others with
  | none => exact List.forall_mem_nil _
  | some plain noColon blank =>
    refine List.forall_mem_append.mpr ⟨?_, List.forall_mem_cons.mpr ⟨by decide, ?_⟩⟩
    · intro c member
      obtain ⟨semicolon, quote⟩ := plain c member
      exact ⟨semicolon, quote, fun same => noColon (same ▸ member)⟩
    · exact fun c member => blank_separates_words (blank c member)

/-- Nothing in an instruction with an immediate operand quotes, starts a comment or ends a label. -/
theorem plain_use (named : isName word = true) (blankGap : Blanks gap) (others : Fields fields)
    (token : Token operand) :
    ∀ c ∈ word ++ (gap ++ (fields ++ operand)), c ≠ ';' ∧ c ≠ '"' ∧ c ≠ ':' := by
  have inWord : ∀ c ∈ word, c ≠ ';' ∧ c ≠ '"' ∧ c ≠ ':' := fun c member =>
    have letter := letter_of_isName named c member
    ⟨letter.semicolon, letter.quote, letter.colon⟩
  have inGap : ∀ c ∈ gap, c ≠ ';' ∧ c ≠ '"' ∧ c ≠ ':' := fun c member =>
    blank_separates_words (blankGap c member)
  have inToken : ∀ c ∈ operand, c ≠ ';' ∧ c ≠ '"' ∧ c ≠ ':' := fun c member =>
    have nothing := tokenChar_separates_nothing (token.chars c member)
    ⟨nothing.2.1, nothing.2.2.1, nothing.2.2.2.1⟩
  simp only [List.forall_mem_append]
  exact ⟨inWord, inGap, plain_fields others, inToken⟩

/-- A name with something behind it is a piece of code, if there is no colon in it. -/
theorem bare_name (named : isName word = true) {rest : List Char}
    (noColon : ∀ c ∈ word ++ rest, c ≠ ':')
    (last : ∀ c, (word ++ rest).getLast? = some c → Text.isBlank c = false) :
    Bare (word ++ rest) where
  filled := by
    cases word with
    | nil => cases named
    | cons c rest => exact List.cons_ne_nil _ _
  first := sharp_head named _
  last := last
  unlabelled := by
    have plain : ∀ c ∈ word ++ rest, (c != ':') = true := fun c member => by
      simpa using noColon c member
    have none : (word ++ rest).dropWhile (· != ':') = [] := by
      rw [← List.append_nil (word ++ _), List.dropWhile_append_of_pos plain]
      exact List.dropWhile_nil
    simp only [splitLabel?, none]
  asks := request_name named _

theorem bare_use (named : isName word = true) (blankGap : Blanks gap) (others : Fields fields)
    (token : Token operand) : Bare (word ++ (gap ++ (fields ++ operand))) := by
  refine bare_name named (fun c member => (plain_use named blankGap others token c member).2.2) ?_
  intro c last
  rw [← List.append_assoc, ← List.append_assoc,
    List.getLast?_append_of_ne_nil _ token.filled] at last
  exact token.sharp c (List.mem_of_getLast? last)

/-- The operands in front of an immediate one. -/
def otherTokens (gap fields : List Char) : List (List Char) :=
  ((Text.pieces (· == ',') (gap ++ fields)).map Text.trim).dropLast

theorem operandTokens_use (blankGap : Blanks gap) (others : Fields fields)
    (token : Token operand) :
    Scope.operandTokens (gap ++ (fields ++ operand)) = otherTokens gap fields ++ [operand] := by
  have first : ∀ c, operand.head? = some c → Text.isBlank c = false := fun c starts =>
    token.sharp c (List.mem_of_head? starts)
  have last : ∀ c, operand.getLast? = some c → Text.isBlank c = false := fun c ends =>
    token.sharp c (List.mem_of_getLast? ends)
  have trimmed : ∀ {blanks}, Blanks blanks → Text.trim (blanks ++ operand) = operand := by
    intro blanks blank
    simpa using Text.trim_around blank noBlanks first last
  have clean : ∀ {blanks}, Blanks blanks → ∀ c ∈ blanks ++ operand, (c == ',') = false := by
    intro blanks blank c member
    refine beq_false_of_ne ?_
    rintro rfl
    rcases List.mem_append.mp member with inBlanks | inToken
    · exact absurd (blank ',' inBlanks) (by decide)
    · exact (tokenChar_separates_nothing (token.chars ',' inToken)).2.2.2.2 rfl
  have left : (Text.trim (gap ++ (fields ++ operand))).isEmpty = false := by
    obtain ⟨most, c, rfl⟩ := (List.eq_nil_or_concat operand).resolve_left token.filled
    have sharp := token.sharp c (by simp)
    rw [List.concat_eq_append, ← List.append_assoc, ← List.append_assoc]
    exact List.isEmpty_eq_false_iff.mpr (Text.trim_concat_ne_nil sharp _)
  unfold Scope.operandTokens otherTokens
  rw [left, if_neg Bool.false_ne_true]
  cases others with
  | none =>
    have alone : ∀ c ∈ gap, (c == ',') = false := by
      intro c member
      exact clean blankGap c (List.mem_append_left _ member)
    rw [List.nil_append, List.append_nil, Text.pieces_clean (clean blankGap), Text.pieces_clean alone]
    simp [trimmed blankGap]
  | @some others blanks plain noColon blank =>
    have last : ∀ c ∈ blanks, (c == ',') = false := by
      intro c member
      exact clean blank c (List.mem_append_left _ member)
    rw [List.append_assoc others, List.cons_append, ← List.append_assoc gap, ← List.append_assoc gap,
      Text.pieces_append _ _ rfl, Text.pieces_append _ _ rfl, Text.pieces_clean (clean blank),
      Text.pieces_clean last]
    simp [trimmed blank]

end Code

/-! ### What the line is read as -/

/-- Instructions that differ in their immediate operand alone. -/
structure Swaps (old new code code' : List Char) : Prop where
  word : (Text.cutAtBlank code').1 = (Text.cutAtBlank code).1
  operands : ∃ others, Scope.operandTokens (Text.cutAtBlank code).2 = others ++ [old] ∧
    Scope.operandTokens (Text.cutAtBlank code').2 = others ++ [new]
  takes : ∃ op, Opcode.ofMnemonic? (String.ofList ((Text.cutAtBlank code).1.map Char.toLower)) =
    some op ∧ .immediate ∈ op.operands

theorem bareInstruction?_use {word : List Char} (named : isName word = true) (rest : List Char) :
    bareInstruction? (word ++ rest) = some (word ++ rest) := by
  cases word with
  | nil => cases named
  | cons c cs =>
    have point := (letter_of_isName named c List.mem_cons_self).point
    unfold bareInstruction?
    rw [if_neg (by simpa using point)]

theorem lineInstruction?_own {raw code core : List Char} (own : ownCode? raw = some code)
    (behind : behindLabel code = core) : lineInstruction? raw = bareInstruction? core := by
  rw [lineInstruction?, own, ← behind]
  rfl

theorem lineRequest?_own {raw code : List Char} (own : ownCode? raw = some code) :
    lineRequest? raw = some .code := by
  obtain ⟨here, asks⟩ := Option.filter_eq_some_iff.mp own
  rw [lineRequest?, here]
  simpa using asks

theorem includedPath?_own {raw code : List Char} (own : ownCode? raw = some code) :
    includedPath? raw = none := by
  rw [includedPath?, lineRequest?_own own]

theorem isMalformed_own {raw code : List Char} (own : ownCode? raw = some code) :
    isMalformed raw = false := by
  rw [isMalformed, lineRequest?_own own]
  rfl

/-- A line of code with an immediate operand, and the same line with another one: the first pass
treats both in the same way. -/
theorem Replaced.lines {old new raw raw' : List Char} (h : Replaced old new raw raw')
    (token : Token old) (token' : Token new) :
    ∃ code code', ownCode? raw = some code ∧ ownCode? raw' = some code' ∧ Alike code code' ∧
      ∃ core core', lineInstruction? raw = some core ∧ lineInstruction? raw' = some core' ∧
        Swaps old new core core' := by
  cases h with
  | @intro front word gap fields back op opening mnemonic takes blankGap apart others closing =>
    have named := isName_of_mnemonic mnemonic
    -- What the opening says of code behind it holds for both lines.
    obtain ⟨label, all⟩ := opening.line
    have plain : ∀ {operand}, Token operand → Plain (word ++ (gap ++ (fields ++ operand))) :=
      fun token c member => by
        have nothing := plain_use named blankGap others token c member
        exact ⟨nothing.1, nothing.2.1⟩
    obtain ⟨code, own, behind, labelled⟩ :=
      all (bare_use named blankGap others token) (plain token).through closing
    obtain ⟨code', own', behind', labelled'⟩ :=
      all (bare_use named blankGap others token') (plain token').through closing
    have held := bareInstruction?_use named (gap ++ (fields ++ old))
    have held' := bareInstruction?_use named (gap ++ (fields ++ new))
    refine ⟨code, code', own, own', ⟨labelled'.trans labelled.symm, .inr ⟨?_, ?_⟩⟩, _, _,
      (lineInstruction?_own own behind).trans held, (lineInstruction?_own own' behind').trans held',
      ?_⟩
    · rw [codeInstruction?, behind, held]
      rfl
    · rw [codeInstruction?, behind', held']
      rfl
    · have cut := cutAtBlank_name named blankGap apart (fields ++ old)
      have cut' := cutAtBlank_name named blankGap apart (fields ++ new)
      refine ⟨by rw [cut, cut'], ⟨otherTokens gap fields, ?_, ?_⟩, op, by rw [cut]; exact mnemonic,
        takes⟩
      · rw [cut]
        exact operandTokens_use blankGap others token
      · rw [cut']
        exact operandTokens_use blankGap others token'

namespace Scope

variable {scope : Scope} {i : Instruction} {code code' old new : List Char} {v : Int32}

/-- With another immediate operand an instruction has another immediate and is the same otherwise. -/
theorem instruction_swaps (swaps : Swaps old new code code') (h : scope.instruction code = .ok i)
    (means : scope.immediate new = .ok v) :
    scope.immediate old = .ok i.imm ∧ scope.instruction code' = .ok { i with imm := v } := by
  obtain ⟨others, tokens, tokens'⟩ := swaps.operands
  obtain ⟨op, mnemonic, takes⟩ := swaps.takes
  obtain ⟨word, _, count, filled⟩ := instruction_eq_ok h
  cases mnemonic.symm.trans word
  obtain ⟨front, back, split, first⟩ := List.eq_append_cons_of_mem takes
  rw [operands_immediate split first] at split
  rw [split, tokens, List.length_append, List.length_append] at count
  have zip : ∀ token : List Char, i.op.operands.zip (others ++ [token]) =
      front.zip others ++ [(.immediate, token)] := fun token => by
    rw [split, List.zip_append (Nat.add_right_cancel count).symm]
    rfl
  rw [tokens, zip] at filled
  obtain ⟨mid, u, start, read, same⟩ := foldlM_immediate.mp filled
  have refilled : (front.zip others ++ [(Operand.immediate, new)]).foldlM scope.fill { op := i.op } =
      .ok { i with imm := v } :=
    foldlM_immediate.mpr ⟨mid, v, start, means, by rw [same]⟩
  refine ⟨by rw [same]; exact read, ?_⟩
  -- The other line has as many operands, and all but the last are the same.
  have many : (others ++ [new]).length = i.op.operands.length := by
    rw [split, List.length_append, List.length_append]
    exact count
  unfold instruction
  dsimp only
  rw [swaps.word, word]
  dsimp only
  rw [tokens', if_pos many, zip]
  exact refilled

end Scope

end RobotArena.Assembly
