import RobotArena.Proofs.Assembly.Overflow
import RobotArena.Proofs.Assembly.Textual
import RobotArena.Proofs.Assembly.Uses

/-!
# Instructions as text

How instructions are written, with numbers in decimal. The main statement is that each instruction
can be written, and that a text of one instruction on each line assembles to these instructions.
-/

namespace RobotArena.Assembly

open Expansion

/-! ### How an instruction is written -/

/-- What is written for an operand. -/
inductive Argument where
  | register (index : UInt8)
  | number (value : Int32)

/-- What is written behind the mnemonic of an instruction, by the table of the instruction set. -/
def arguments (i : Instruction) : List Argument :=
  match i.op with
  | .nop | .halt | .yield | .ret => []
  | .crash | .push | .pop => [.register i.a]
  | .jmp | .call | .ext => [.number i.imm]
  | .li | .jz | .jnz => [.register i.a, .number i.imm]
  | .mov | .itof | .ftoi => [.register i.a, .register i.b]
  | .addi | .ld | .ldb | .st | .stb => [.register i.a, .register i.b, .number i.imm]
  | .add | .sub | .mul | .div | .rem | .and | .or | .xor | .shl | .shr | .fadd | .fsub | .fmul
  | .fdiv | .eq | .lt | .le | .flt => [.register i.a, .register i.b, .register i.c]

/-- An argument is written in decimal digits, a register with its letter and a number below zero with
a minus sign. -/
inductive Spells : Argument → List Char → Prop
  | register {index : UInt8} {digits : List Char} (denotes : Decimal digits index.toNat) :
      Spells (.register index) ('r' :: digits)
  | plain {value : Int32} {digits : List Char} {n : Nat} (denotes : Decimal digits n)
      (same : value.toInt = n) : Spells (.number value) digits
  | minus {value : Int32} {digits : List Char} {n : Nat} (denotes : Decimal digits n)
      (same : value.toInt = -n) : Spells (.number value) ('-' :: digits)

/-- Arguments with a comma between any two of them and blanks around the comma. -/
inductive Enumerates : List Argument → List Char → Prop
  | one {argument token} (spells : Spells argument token) : Enumerates [argument] token
  | more {argument token before behind rest text} (spells : Spells argument token)
      (blankBefore : Blanks before) (blankBehind : Blanks behind) (others : Enumerates rest text) :
      Enumerates (argument :: rest) (token ++ (before ++ ',' :: (behind ++ text)))

/-- A line that writes an instruction: the mnemonic in any case, and its arguments if it has some. -/
inductive Writes (i : Instruction) : List Char → Prop
  | bare {front word back} (blankFront : Blanks front)
      (mnemonic : word.map Char.toLower = i.op.mnemonic.toList) (none : arguments i = [])
      (blankBack : Blanks back) : Writes i (front ++ word ++ back)
  | applied {front word gap text back} (blankFront : Blanks front)
      (mnemonic : word.map Char.toLower = i.op.mnemonic.toList) (blankGap : Blanks gap)
      (apart : gap ≠ []) (all : Enumerates (arguments i) text) (blankBack : Blanks back) :
      Writes i (front ++ (word ++ (gap ++ text)) ++ back)

/-- A text that writes instructions, each on a line of its own. The last line may end without a line
feed. -/
inductive WritesAll : List Instruction → List Char → Prop
  | none : WritesAll [] []
  | last {i raw} (writes : Writes i raw) (whole : '\n' ∉ raw) : WritesAll [i] raw
  | line {i raw is text} (writes : Writes i raw) (whole : '\n' ∉ raw) (rest : WritesAll is text) :
      WritesAll (i :: is) (raw ++ '\n' :: text)

/-- Instructions that assembly text has words for: their registers exist, and the fields that the
operation has no operand for are zero. -/
structure Expressible (i : Instruction) : Prop where
  valid : i.Valid
  a : .a ∉ i.op.operands → i.a = 0
  b : .b ∉ i.op.operands → i.b = 0
  c : .c ∉ i.op.operands → i.c = 0
  imm : .immediate ∉ i.op.operands → .function ∉ i.op.operands → i.imm = 0
  function : i.op = .ext → 0 ≤ i.imm.toInt ∧ i.imm.toInt ≤ 0xFFFF

/-! ### Arguments -/

theorem isDigit_of_decimal {digits : List Char} {n : Nat} (denotes : Decimal digits n) :
    ∀ c ∈ digits, Text.isDigit c = true :=
  ((decimal_iff digits n).mpr denotes).2.1

theorem Spells.token {argument : Argument} {cs : List Char} (spells : Spells argument cs) :
    Token cs := by
  have chars : ∀ {digits n}, Decimal digits n → ∀ c ∈ digits, isTokenChar c = true :=
    fun denotes c member => tokenChar_of_isDigit (isDigit_of_decimal denotes c member)
  cases spells with
  | register denotes =>
    exact ⟨List.cons_ne_nil _ _, List.forall_mem_cons.mpr ⟨by decide, chars denotes⟩⟩
  | plain denotes same => exact ⟨denotes.filled, chars denotes⟩
  | minus denotes same =>
    exact ⟨List.cons_ne_nil _ _, List.forall_mem_cons.mpr ⟨by decide, chars denotes⟩⟩

namespace Enumerates

variable {arguments : List Argument} {text gap : List Char}

/-- Nothing in written arguments has a meaning in a line but blanks and commas. -/
theorem chars (all : Enumerates arguments text) :
    ∀ c ∈ text, isTokenChar c = true ∨ Text.isBlank c = true ∨ c = ',' := by
  induction all with
  | one spells => exact fun c member => .inl (spells.token.chars c member)
  | more spells blankBefore blankBehind others ih =>
    simp only [List.forall_mem_append, List.forall_mem_cons]
    exact ⟨fun c member => .inl (spells.token.chars c member),
      fun c member => .inr (.inl (blankBefore c member)), .inr (.inr trivial),
      fun c member => .inr (.inl (blankBehind c member)), ih⟩

theorem last (all : Enumerates arguments text) :
    ∃ front c, text = front ++ [c] ∧ Text.isBlank c = false := by
  induction all with
  | @one argument token spells =>
    obtain ⟨front, c, rfl⟩ := (List.eq_nil_or_concat token).resolve_left spells.token.filled
    exact ⟨front, c, List.concat_eq_append, spells.token.sharp c (by simp)⟩
  | @more argument token before behind rest text spells blankBefore blankBehind others ih =>
    obtain ⟨front, c, rfl, sharp⟩ := ih
    exact ⟨token ++ (before ++ ',' :: (behind ++ front)), c, by simp, sharp⟩

/-- Written arguments are taken apart at the commas. -/
theorem pieces (all : Enumerates arguments text) (blankGap : Blanks gap) :
    List.Forall₂ Spells arguments ((Text.pieces (· == ',') (gap ++ text)).map Text.trim) := by
  have trimmed : ∀ {front token back}, Blanks front → Token token → Blanks back →
      Text.trim (front ++ token ++ back) = token := by
    intro front token back before token' behind
    exact Text.trim_around before behind
      (fun c first => token'.sharp c (List.mem_of_head? first))
      (fun c last => token'.sharp c (List.mem_of_getLast? last))
  have clean : ∀ {front token back}, Blanks front → Token token → Blanks back →
      ∀ c ∈ front ++ token ++ back, (c == ',') = false := by
    intro front token back before token' behind c member
    refine beq_false_of_ne ?_
    rintro rfl
    rw [List.mem_append, List.mem_append] at member
    rcases member with (inFront | inToken) | inBack
    · exact absurd (before ',' inFront) (by decide)
    · exact (tokenChar_separates_nothing (token'.chars ',' inToken)).2.2.2.2 rfl
    · exact absurd (behind ',' inBack) (by decide)
  -- Behind a comma blanks stand where the gap stands in front of the first argument.
  induction all generalizing gap with
  | one spells =>
    have alone := clean blankGap spells.token noBlanks
    have same := trimmed blankGap spells.token noBlanks
    rw [List.append_nil] at alone same
    rw [Text.pieces_clean alone, List.map_singleton, same]
    exact .cons spells .nil
  | more spells blankBefore blankBehind others ih =>
    rw [← List.append_assoc, ← List.append_assoc,
      Text.pieces_append_cons (clean blankGap spells.token blankBefore) rfl, List.map_cons,
      trimmed blankGap spells.token blankBefore]
    exact .cons spells (ih blankBehind)

theorem operandTokens (all : Enumerates arguments text) (blankGap : Blanks gap) :
    List.Forall₂ Spells arguments (Scope.operandTokens (gap ++ text)) := by
  obtain ⟨front, c, same, sharp⟩ := all.last
  have filled : (Text.trim (gap ++ text)).isEmpty = false := by
    rw [same, ← List.append_assoc]
    exact List.isEmpty_eq_false_iff.mpr (Text.trim_concat_ne_nil sharp _)
  unfold Scope.operandTokens
  rw [filled, if_neg Bool.false_ne_true]
  exact all.pieces blankGap

end Enumerates

/-! ### What is read from mnemonics and arguments -/

theorem ofMnemonic?_spelled {word : List Char} {op : Opcode}
    (mnemonic : word.map Char.toLower = op.mnemonic.toList) :
    Opcode.ofMnemonic? (String.ofList (word.map Char.toLower)) = some op := by
  rw [mnemonic, String.ofList_toList, Opcode.ofMnemonic?_mnemonic]

/-- What is written for one operand of an instruction. -/
def argument (i : Instruction) : Operand → Argument
  | .a => .register i.a
  | .b => .register i.b
  | .c => .register i.c
  | .immediate => .number i.imm
  | .function => .number i.imm

theorem arguments_eq (i : Instruction) : arguments i = i.op.operands.map (argument i) := by
  unfold arguments
  cases i.op <;> rfl

/-- An instruction that is the other one but for what some operands fill in. -/
structure Lacks (i j : Instruction) (rest : List Operand) : Prop where
  op : j.op = i.op
  a : .a ∉ rest → j.a = i.a
  b : .b ∉ rest → j.b = i.b
  c : .c ∉ rest → j.c = i.c
  imm : .immediate ∉ rest → .function ∉ rest → j.imm = i.imm

theorem Expressible.lacks {i : Instruction} (expressible : Expressible i) :
    Lacks i { op := i.op } i.op.operands where
  op := rfl
  a := fun other => (expressible.a other).symm
  b := fun other => (expressible.b other).symm
  c := fun other => (expressible.c other).symm
  imm := fun one two => (expressible.imm one two).symm

/-- An instruction with one more operand of the other one. -/
def withOperand (i j : Instruction) : Operand → Instruction
  | .a => { j with a := i.a }
  | .b => { j with b := i.b }
  | .c => { j with c := i.c }
  | .immediate => { j with imm := i.imm }
  | .function => { j with imm := i.imm }

theorem Lacks.fill {i j : Instruction} {operand : Operand} {rest : List Operand}
    (lacks : Lacks i j (operand :: rest)) : Lacks i (withOperand i j operand) rest := by
  obtain ⟨op, a, b, c, imm⟩ := lacks
  cases operand <;> constructor <;> simp_all [withOperand]

theorem Lacks.eq {i j : Instruction} (lacks : Lacks i j []) : j = i := by
  obtain ⟨op, a, b, c, imm⟩ := lacks
  cases i
  cases j
  simp_all

namespace Scope

variable {scope : Scope} {i j : Instruction} {token : List Char}

theorem register_spelled {index : UInt8} (below : index.toNat < registerCount)
    (spells : Spells (.register index) token) : register token = .ok index := by
  cases spells with
  | register denotes =>
    have read := (readRegister?_iff _ index).mpr (.inl ⟨_, rfl, denotes, below⟩)
    unfold register
    rw [read]

theorem readInteger?_spelled {value : Int32} (spells : Spells (.number value) token) :
    readInteger? token = some value.toInt := by
  have low := value.le_toInt
  have high := value.toInt_lt
  rw [readInteger?_iff]
  left
  cases spells with
  | plain denotes same =>
    rw [same]
    exact .plain (.decimal denotes) (by unfold integerLimit; omega)
  | minus denotes same =>
    rw [same]
    exact .minus (.decimal denotes) (by unfold integerLimit; omega)

theorem immediate_spelled {value : Int32} (spells : Spells (.number value) token) :
    scope.immediate token = .ok value := by
  have low := value.le_toInt
  have high := value.toInt_lt
  unfold immediate
  rw [readInteger?_spelled spells]
  dsimp only
  rw [if_neg (by omega), Int32.ofInt_toInt]

theorem function_spelled {value : Int32} (range : 0 ≤ value.toInt ∧ value.toInt ≤ 0xFFFF)
    (spells : Spells (.number value) token) : scope.function token = .ok value := by
  unfold function
  rw [readInteger?_spelled spells]
  dsimp only
  rw [if_pos range, Int32.ofInt_toInt]

/-- One operand is filled in with what the instruction has for it. -/
theorem fill_spelled {operand : Operand} (expressible : Expressible i)
    (takes : operand ∈ i.op.operands) (spells : Spells (argument i operand) token) :
    scope.fill j (operand, token) = .ok (withOperand i j operand) := by
  cases operand with
  | a =>
    rw [fill, register_spelled expressible.valid.a spells]
    rfl
  | b =>
    rw [fill, register_spelled expressible.valid.b spells]
    rfl
  | c =>
    rw [fill, register_spelled expressible.valid.c spells]
    rfl
  | immediate =>
    rw [fill, immediate_spelled spells]
    rfl
  | function =>
    have ext : i.op = .ext := by
      revert takes
      cases i.op <;> decide
    rw [fill, function_spelled (expressible.function ext) spells]
    rfl

/-- All operands are filled in one after another, until nothing is missing. -/
theorem foldlM_spelled {operands : List Operand} {tokens : List (List Char)}
    (expressible : Expressible i) (takes : ∀ operand ∈ operands, operand ∈ i.op.operands)
    (spells : List.Forall₂ Spells (operands.map (argument i)) tokens)
    (lacks : Lacks i j operands) : (operands.zip tokens).foldlM scope.fill j = .ok i := by
  induction operands generalizing j tokens with
  | nil =>
    rw [List.zip_nil_left, lacks.eq]
    rfl
  | cons operand rest ih =>
    obtain ⟨token, later, first, others, rfl⟩ := List.forall₂_cons_left_iff.mp spells
    have filled : scope.fill j (operand, token) = .ok (withOperand i j operand) :=
      fill_spelled expressible (takes operand List.mem_cons_self) first
    rw [List.zip_cons_cons, List.foldlM_cons, filled]
    exact ih (fun operand member => takes operand (List.mem_cons_of_mem _ member)) others lacks.fill

theorem instruction_spelled {word rest : List Char} {code : List Char}
    (expressible : Expressible i) (cut : Text.cutAtBlank code = (word, rest))
    (mnemonic : word.map Char.toLower = i.op.mnemonic.toList)
    (spells : List.Forall₂ Spells (arguments i) (operandTokens rest)) :
    scope.instruction code = .ok i := by
  rw [arguments_eq] at spells
  have count := spells.length_eq
  rw [List.length_map] at count
  unfold instruction
  rw [cut]
  dsimp only
  rw [ofMnemonic?_spelled mnemonic]
  dsimp only
  rw [if_pos count.symm]
  exact foldlM_spelled expressible (fun _ => id) spells expressible.lacks

end Scope

/-! ### Lines -/

/-- Code that is an instruction and nothing else, whatever the names in it stand for. -/
structure Reads (i : Instruction) (code : List Char) : Prop where
  unlabelled : splitLabel? code = none
  held : bareInstruction? code = some code
  read : ∀ scope : Scope, scope.instruction code = .ok i

theorem Bare.line {front core back : List Char} (bare : Bare core) (blanks : Blanks front)
    (through : core.foldlM Region.next? .code = some .code) (closing : Closing back) :
    ownCode? (front ++ core ++ back) = some core := by
  have whole : (front ++ core).foldlM Region.next? .code = some .code := by
    rw [List.foldlM_append, blanks.plain.through]
    exact through
  obtain ⟨spare, blank, kept⟩ := dropComment_closing whole closing
  unfold ownCode? codeText?
  dsimp only
  rw [kept, Text.trim_append blank, bare.trim blanks, if_neg (by simpa using bare.filled)]
  simp [bare.asks]

section Line

variable {i : Instruction} {front word rest back raw : List Char}

theorem reads_line (expressible : Expressible i) (blankFront : Blanks front)
    (mnemonic : word.map Char.toLower = i.op.mnemonic.toList) (blankBack : Blanks back)
    (plain : ∀ c ∈ rest, c ≠ ';' ∧ c ≠ '"' ∧ c ≠ ':')
    (last : ∀ c, (word ++ rest).getLast? = some c → Text.isBlank c = false)
    (cut : Text.cutAtBlank (word ++ rest) = (word, rest))
    (spells : List.Forall₂ Spells (arguments i) (Scope.operandTokens rest)) :
    ∃ code, ownCode? (front ++ (word ++ rest) ++ back) = some code ∧ Reads i code := by
  have named := isName_of_mnemonic (ofMnemonic?_spelled mnemonic)
  have nothing : ∀ c ∈ word ++ rest, c ≠ ';' ∧ c ≠ '"' ∧ c ≠ ':' := by
    refine List.forall_mem_append.mpr ⟨fun c member => ?_, plain⟩
    have letter := letter_of_isName named c member
    exact ⟨letter.semicolon, letter.quote, letter.colon⟩
  have bare := bare_name named (fun c member => (nothing c member).2.2) last
  have through : Plain (word ++ rest) := fun c member =>
    ⟨(nothing c member).1, (nothing c member).2.1⟩
  exact ⟨_, bare.line blankFront through.through (.blank blankBack), bare.unlabelled,
    bareInstruction?_use named rest, fun scope =>
      Scope.instruction_spelled expressible cut mnemonic spells⟩

/-- A line that writes an instruction is read as this instruction. -/
theorem Writes.reads (writes : Writes i raw) (expressible : Expressible i) :
    ∃ code, ownCode? raw = some code ∧ Reads i code := by
  cases writes with
  | @bare front word back blankFront mnemonic none blankBack =>
    have sharp := sharp_of_isName (isName_of_mnemonic (ofMnemonic?_spelled mnemonic))
    have cut : Text.cutAtBlank (word ++ []) = (word, []) := by
      have all : ∀ c ∈ word, (!Text.isBlank c) = true := fun c member => by
        rw [sharp c member]
        rfl
      unfold Text.cutAtBlank
      rw [List.takeWhile_append_of_pos all, List.dropWhile_append_of_pos all]
      exact congrArg (·, []) (List.append_nil word)
    have line := reads_line expressible blankFront mnemonic blankBack (List.forall_mem_nil _)
      (fun c last => sharp c (by simpa using List.mem_of_getLast? last)) cut (by rw [none]; exact .nil)
    rwa [List.append_nil] at line
  | @applied front word gap text back blankFront mnemonic blankGap apart all blankBack =>
    have named := isName_of_mnemonic (ofMnemonic?_spelled mnemonic)
    obtain ⟨most, final, same, sharp⟩ := all.last
    refine reads_line expressible blankFront mnemonic blankBack ?_ ?_
      (cutAtBlank_name named blankGap apart text) (all.operandTokens blankGap)
    · refine List.forall_mem_append.mpr ⟨fun c member => ?_, fun c member => ?_⟩
      · exact blank_separates_words (blankGap c member)
      · rcases all.chars c member with part | blank | rfl
        · have nothing := tokenChar_separates_nothing part
          exact ⟨nothing.2.1, nothing.2.2.1, nothing.2.2.2.1⟩
        · exact blank_separates_words blank
        · decide
    · intro c last
      rw [same, ← List.append_assoc, ← List.append_assoc, List.getLast?_concat] at last
      cases last
      exact sharp

end Line

theorem ownCode?_chomp (raw : List Char) : ownCode? (Text.chomp raw) = ownCode? raw := by
  unfold ownCode?
  rw [codeText?_chomp]

/-- A text that writes instructions has one line for each, which is read as this instruction. -/
theorem WritesAll.reads {is : List Instruction} {text : List Char} (writes : WritesAll is text)
    (expressible : ∀ i ∈ is, Expressible i) :
    List.Forall₂ (fun i raw => ∃ code, ownCode? raw = some code ∧ Reads i code) is
      (Text.lines text) := by
  induction writes with
  | none => exact .nil
  | @last i raw writes whole =>
    obtain ⟨code, own, reads⟩ := writes.reads (expressible i List.mem_cons_self)
    have filled : raw ≠ [] := by
      rintro rfl
      cases own
    rw [Text.lines_single filled whole]
    exact .cons ⟨code, own, reads⟩ .nil
  | @line i raw is text writes whole rest ih =>
    obtain ⟨code, own, reads⟩ := writes.reads (expressible i List.mem_cons_self)
    rw [Text.lines_cons whole]
    exact .cons ⟨code, (ownCode?_chomp raw).trans own, reads⟩
      (ih fun j member => expressible j (List.mem_cons_of_mem _ member))

theorem reads_filterMap {is : List Instruction} {raws : List (List Char)}
    (all : List.Forall₂ (fun i raw => ∃ code, ownCode? raw = some code ∧ Reads i code) is raws) :
    List.Forall₂ Reads is (raws.filterMap ownCode?) ∧
      ∀ raw ∈ raws, includedPath? raw = none ∧ isMalformed raw = false := by
  induction all with
  | nil => exact ⟨.nil, List.forall_mem_nil _⟩
  | cons first _ ih =>
    obtain ⟨code, own, reads⟩ := first
    rw [List.filterMap_cons_some own]
    exact ⟨.cons reads ih.1, List.forall_mem_cons.mpr
      ⟨⟨includedPath?_own own, isMalformed_own own⟩, ih.2⟩⟩

/-! ### The passes -/

theorem Survey.foldl_reads {is : List Instruction} {lines : List Line} (s : Survey)
    (reads : List.Forall₂ Reads is (lines.map (·.text))) :
    ∃ slots, lines.foldl addLine s = { s with slots } := by
  induction lines generalizing s is with
  | nil => exact ⟨s.slots, rfl⟩
  | cons line rest ih =>
    obtain ⟨i, later, first, others, rfl⟩ := List.forall₂_cons_right_iff.mp reads
    have added : s.addLine line = { s with slots := s.slots.push ⟨line, line.text⟩ } := by
      unfold addLine
      rw [first.unlabelled]
      exact addCode_instruction (by rw [first.held]; rfl)
    obtain ⟨slots, found⟩ := ih _ others
    exact ⟨slots, by rw [List.foldl_cons, found, added]⟩

theorem codeInstruction?_reads {is : List Instruction} {codes : List (List Char)}
    (reads : List.Forall₂ Reads is codes) : codes.filterMap codeInstruction? = codes := by
  induction reads with
  | nil => rfl
  | cons first _ ih =>
    have held : ∀ {code : List Char}, splitLabel? code = none → codeInstruction? code =
        bareInstruction? code := by
      intro code unlabelled
      rw [codeInstruction?, behindLabel, unlabelled]
    rw [List.filterMap_cons_some ((held first.unlabelled).trans first.held), ih]

theorem map_reads {is : List Instruction} {codes : List (List Char)} (scope : Scope)
    (reads : List.Forall₂ Reads is codes) : codes.map scope.instruction = is.map .ok := by
  induction reads with
  | nil => rfl
  | cons first _ ih => rw [List.map_cons, List.map_cons, first.read, ih]

/-- An expansion of instructions that need no names assembles to these instructions, and no
arithmetic overflows on the way. -/
theorem assembles_of_reads (externals : List Signature) {e : Expansion} {is : List Instruction}
    (complete : e.missing = false) (sound : faulty e.diagnostics = false)
    (reads : List.Forall₂ Reads is (e.lines.toList.map (·.text))) :
    ∃ p, Outcome.ofExpansion externals e = .compiled p ∧ p.code = .ofInstructions is ∧
      overflows externals e = false := by
  -- The first pass only finds slots, so there are no strings and no prologue.
  obtain ⟨slots, found⟩ := Survey.foldl_reads
    { files := e.files, externals, diagnostics := e.diagnostics } reads
  have codes : slots.toList.map (·.code) = e.lines.toList.map (·.text) := by
    have passed := Survey.slots_foldl
      (s := { files := e.files, externals, diagnostics := e.diagnostics }) e.lines.toList
    rw [found, codeInstruction?_reads reads] at passed
    exact passed.trans (List.nil_append _)
  rw [Array.foldl_toList] at found
  have survey : Survey.ofExpansion externals e =
      { files := e.files, externals, diagnostics := e.diagnostics, slots } := found
  have read : slots.toList.map (fun slot =>
      (Survey.ofExpansion externals e).finalScope.instruction slot.code) = is.map .ok := by
    rw [← map_reads _ reads, ← codes, List.map_map]
    rfl
  have same : (Survey.ofExpansion externals e).slots = slots := by rw [survey]
  have clean : faulty (Survey.ofExpansion externals e).diagnostics = false := by
    rw [survey]
    exact sound
  obtain ⟨p, compiled, assembles⟩ := compiled_of_read complete clean (by rw [same]; exact read)
  refine ⟨p, compiled, ?_, ?_⟩
  · rw [assembles.code, survey]
    rfl
  · have within : ∀ slot ∈ slots.toList, (integerOperand? slot.code).any exceeds = false := by
      intro slot member
      have result := List.mem_map_of_mem (f := fun slot =>
        (Survey.ofExpansion externals e).finalScope.instruction slot.code) member
      rw [read] at result
      obtain ⟨i, -, ok⟩ := List.mem_map.mp result
      rw [← Scope.hasOverflowed_instruction, ← ok]
      rfl
    have none : (slots.toList.any fun slot => (integerOperand? slot.code).any exceeds) = false :=
      List.any_eq_false.mpr fun slot member => by rw [within slot member]; exact Bool.false_ne_true
    unfold overflows Survey.encode
    dsimp only
    rw [← Array.foldl_toList, overflowed_foldl_addSlot, same, none, survey, Bool.or_false]
    exact Bool.and_false _

/-! ### Every instruction can be written -/

theorem decimal_exists (n : Nat) : ∃ digits, Decimal digits n := by
  have digit : ∀ d < 10, ∃ c, decimalDigit? c = some d := by
    intro d small
    refine ⟨Nat.digitChar d, ?_⟩
    revert d
    decide
  induction n using Nat.strongRecOn with
  | ind n ih =>
    by_cases small : n < 10
    · obtain ⟨c, value⟩ := digit n small
      exact ⟨[c], .one value⟩
    · obtain ⟨front, before⟩ := ih (n / 10) (by omega)
      obtain ⟨c, value⟩ := digit (n % 10) (Nat.mod_lt n (by decide))
      refine ⟨front ++ [c], ?_⟩
      rw [← Nat.div_add_mod' n 10]
      exact .more before value

theorem spells_exists (argument : Argument) : ∃ token, Spells argument token := by
  cases argument with
  | register index =>
    obtain ⟨digits, denotes⟩ := decimal_exists index.toNat
    exact ⟨_, .register denotes⟩
  | number value =>
    obtain ⟨digits, denotes⟩ := decimal_exists value.toInt.natAbs
    rcases Int.natAbs_eq value.toInt with same | same
    · exact ⟨_, .plain denotes same⟩
    · exact ⟨_, .minus denotes same⟩

theorem enumerates_exists {arguments : List Argument} (filled : arguments ≠ []) :
    ∃ text, Enumerates arguments text ∧ '\n' ∉ text := by
  have whole : ∀ {argument token}, Spells argument token → '\n' ∉ token := by
    intro argument token spells newline
    exact absurd (spells.token.sharp '\n' newline) (by decide)
  induction arguments with
  | nil => exact absurd rfl filled
  | cons argument rest ih =>
    obtain ⟨token, spells⟩ := spells_exists argument
    by_cases alone : rest = []
    · rw [alone]
      exact ⟨token, .one spells, whole spells⟩
    · obtain ⟨text, others, later⟩ := ih alone
      refine ⟨_, .more spells noBlanks noBlanks others, ?_⟩
      simp [whole spells, later]

theorem writes_exists (i : Instruction) : ∃ raw, Writes i raw ∧ '\n' ∉ raw := by
  have lower : i.op.mnemonic.toList.map Char.toLower = i.op.mnemonic.toList := by
    cases i.op <;> decide
  have whole : '\n' ∉ i.op.mnemonic.toList := by
    cases i.op <;> decide
  by_cases none : arguments i = []
  · exact ⟨_, .bare noBlanks lower none noBlanks, by simpa using whole⟩
  · obtain ⟨text, all, later⟩ := enumerates_exists none
    have gap : Blanks [' '] := by decide
    refine ⟨_, .applied noBlanks lower gap (List.cons_ne_nil _ _) all noBlanks, ?_⟩
    simp [whole, later]

theorem writesAll_exists (is : List Instruction) : ∃ text, WritesAll is text := by
  induction is with
  | nil => exact ⟨[], .none⟩
  | cons i rest ih =>
    obtain ⟨raw, writes, whole⟩ := writes_exists i
    obtain ⟨text, others⟩ := ih
    exact ⟨_, .line writes whole others⟩

/-- All instructions whose registers exist and whose unused fields are zero can be written. However
they are written, one on each line, the text is accepted and assembles to exactly them. -/
theorem instructions_assemble_to_themselves (externals : List Signature) (texts : Texts)
    (root : String) {is : List Instruction} (expressible : ∀ i ∈ is, Expressible i) :
    (∃ text, WritesAll is text) ∧
      ∀ text, WritesAll is text →
        ∃ p, compile externals texts root (Text.encode text) = .compiled p ∧
          compileChecked? externals texts root (Text.encode text) = some (.compiled p) ∧
          p.code = .ofInstructions is ∧ p.diagnostics.any (·.isError) = false := by
  refine ⟨writesAll_exists is, fun text writes => ?_⟩
  have lines : fileLines (Text.encode text) = Text.lines text := by
    unfold fileLines
    rw [Text.decodeLossy_encode]
  obtain ⟨reads, own⟩ := reads_filterMap (writes.reads expressible)
  rw [← lines] at reads own
  obtain ⟨-, gains⟩ := expand_own texts root fun raw member => (own raw member).1
  have codes : (expand texts root (Text.encode text)).lines.toList.map (·.text) =
      (fileLines (Text.encode text)).filterMap ownCode? := by
    rw [gains.lines]
    exact List.nil_append _
  have sound : faulty (expand texts root (Text.encode text)).diagnostics = false := by
    rw [gains.faults]
    refine Bool.or_eq_false_iff.mpr ⟨by simp [faulty, start], List.any_eq_false.mpr fun raw member => ?_⟩
    rw [(own raw member).2]
    exact Bool.false_ne_true
  obtain ⟨p, compiled, code, within⟩ := assembles_of_reads externals gains.missing sound
    (by rw [codes]; exact reads)
  obtain ⟨-, clean, rfl⟩ := compiled_iff.mp compiled
  refine ⟨_, compiled, ?_, code, clean⟩
  unfold compileChecked?
  dsimp only
  rw [within, if_neg Bool.false_ne_true, compiled]

/-- A load, a store, a call and a stop. -/
def mixedInstructions : List Instruction :=
  [{ op := .li, a := 3, imm := -12 }, { op := .st, a := 15, b := 0, imm := 7 },
    { op := .ext, imm := 60 }, { op := .halt }]

/-- The same in letters of both cases and with blanks around. -/
def mixedText : List Char :=
  "\tLI r3 ,  -12\nSt r15,r0\t, 7 \next\t60\nhalT".toList

theorem expressible_mixed : ∀ i ∈ mixedInstructions, Expressible i := by
  unfold mixedInstructions
  simp only [List.forall_mem_cons]
  refine ⟨?_, ?_, ?_, ?_, List.forall_mem_nil _⟩ <;>
    exact ⟨⟨by decide, by decide, by decide⟩, by decide, by decide, by decide, by decide, by decide⟩

theorem writesAll_mixed : WritesAll mixedInstructions mixedText := by
  have one : Decimal ['1'] 1 := .one rfl
  have six : Decimal ['6'] 6 := .one rfl
  have r3 : Spells (.register 3) ['r', '3'] := .register (.one rfl)
  have r15 : Spells (.register 15) ['r', '1', '5'] := .register (@Denotes.more 10 _ _ '5' _ 5 one rfl)
  have r0 : Spells (.register 0) ['r', '0'] := .register (.one rfl)
  have twelve : Spells (.number (-12)) ['-', '1', '2'] :=
    .minus (@Denotes.more 10 _ _ '2' _ 2 one rfl) (by decide)
  have seven : Spells (.number 7) ['7'] := .plain (@Denotes.one 10 _ '7' 7 rfl) (by decide)
  have sixty : Spells (.number 60) ['6', '0'] :=
    .plain (@Denotes.more 10 _ _ '0' _ 0 six rfl) (by decide)
  have blanks : Blanks [' '] ∧ Blanks ['\t'] ∧ Blanks [' ', ' '] := by decide
  have load := @Writes.applied { op := .li, a := 3, imm := -12 } ['\t'] ['L', 'I'] [' '] _ []
    blanks.2.1 rfl blanks.1 (by decide) (.more r3 blanks.1 blanks.2.2 (.one twelve)) noBlanks
  have store := @Writes.applied { op := .st, a := 15, b := 0, imm := 7 } [] ['S', 't'] [' '] _ [' ']
    noBlanks rfl blanks.1 (by decide)
    (.more r15 noBlanks noBlanks (.more r0 blanks.2.1 blanks.1 (.one seven))) blanks.1
  have call := @Writes.applied { op := .ext, imm := 60 } [] ['e', 'x', 't'] ['\t'] _ []
    noBlanks rfl blanks.2.1 (by decide) (.one sixty) noBlanks
  have stop := @Writes.bare { op := .halt } [] ['h', 'a', 'l', 'T'] [] noBlanks rfl rfl noBlanks
  have all := WritesAll.line load (by decide) (.line store (by decide) (.line call (by decide)
    (.last stop (by decide))))
  exact all

theorem mixed_assembles_to_itself :
    (∀ i ∈ mixedInstructions, Expressible i) ∧ WritesAll mixedInstructions mixedText ∧
      ∃ p, compileChecked? [] [] "main.asm" (Text.encode mixedText) = some (.compiled p) ∧
        p.code = .ofInstructions mixedInstructions := by
  obtain ⟨-, all⟩ := instructions_assemble_to_themselves [] [] "main.asm" expressible_mixed
  obtain ⟨p, -, checked, code, -⟩ := all mixedText writesAll_mixed
  exact ⟨expressible_mixed, writesAll_mixed, p, checked, code⟩

end RobotArena.Assembly
