import RobotArena.Proofs.Assembly.Prologue

/-!
# Labels and instructions

The first pass counts instructions to number labels, and the second one puts the prologue in front
of them. The main statement is that both agree: an accepted program consists of the prologue and one
instruction for each line that holds one, and a label means the place of the next one of them.
-/

namespace RobotArena.Assembly

open Expansion

/-! ### What a line holds -/

/-- The instruction that a line holds. -/
def lineInstruction? (raw : List Char) : Option (List Char) :=
  (ownCode? raw).bind codeInstruction?

/-- The label that a line starts with. -/
def lineLabel? (raw : List Char) : Option (List Char) :=
  (ownCode? raw).bind fun code => (splitLabel? code).map Prod.fst

/-- The immediate operand of an instruction, as it is written. -/
def immediateOperand? (code : List Char) : Option (List Char) :=
  (Opcode.ofMnemonic? (String.ofList ((Text.cutAtBlank code).1.map Char.toLower))).bind fun op =>
    (op.operands.zip (Scope.operandTokens (Text.cutAtBlank code).2)).lookup .immediate

namespace Scope

variable {scope : Scope} {i i' : Instruction}

/-- Nothing is written behind an immediate operand. -/
theorem operands_immediate {op : Opcode} {front back : List Operand}
    (split : op.operands = front ++ .immediate :: back) (first : .immediate ∉ front) :
    back = [] := by
  have rest : op.operands.dropWhile (· ≠ .immediate) = .immediate :: back := by
    rw [split, List.dropWhile_append_of_pos, List.dropWhile_cons_of_neg (by simp)]
    intro operand member
    simpa using fun same : operand = .immediate => first (same ▸ member)
  have last : (op.operands.dropWhile (· ≠ .immediate)).tail = [] := by
    cases op <;> rfl
  rwa [rest] at last

/-- The last operand that is filled in is the immediate one, if there is one. -/
theorem zip_immediate {op : Opcode} {tokens : List (List Char)} {token : List Char}
    (count : tokens.length = op.operands.length)
    (written : (op.operands.zip tokens).lookup .immediate = some token) :
    ∃ front, op.operands.zip tokens = front ++ [(.immediate, token)] := by
  obtain ⟨front, back, split, first⟩ := List.lookup_eq_some_iff.mp written
  have operands := List.map_fst_zip (Nat.le_of_eq count.symm)
  rw [split, List.map_append, List.map_cons] at operands
  have last := operands_immediate operands.symm fun member => by
    obtain ⟨slot, inFront, same⟩ := List.mem_map.mp member
    exact absurd (first slot inFront) (by simp [same])
  rw [List.map_eq_nil_iff.mp last] at split
  exact ⟨front, split⟩

theorem foldlM_immediate {front : List (Operand × List Char)} {token : List Char} :
    (front ++ [(Operand.immediate, token)]).foldlM scope.fill i = .ok i' ↔
      ∃ mid v, front.foldlM scope.fill i = .ok mid ∧ scope.immediate token = .ok v ∧
        i' = { mid with imm := v } := by
  rw [List.foldlM_append]
  cases front.foldlM scope.fill i with
  | error fault => exact ⟨nofun, nofun⟩
  | ok mid =>
    have last : [(Operand.immediate, token)].foldlM scope.fill mid =
        (fun v => { mid with imm := v }) <$> scope.immediate token := by
      simp only [List.foldlM_cons, List.foldlM_nil, bind_pure, fill, bind_pure_comp]
    constructor
    · intro filled
      obtain ⟨v, read, same⟩ := map_eq_ok (last.symm.trans filled)
      exact ⟨mid, v, rfl, read, same.symm⟩
    · rintro ⟨_, v, start, read, rfl⟩
      cases start
      refine last.trans ?_
      rw [read]
      rfl

/-- The immediate of an instruction is what its immediate operand means. -/
theorem instruction_immediate {code token : List Char} (h : scope.instruction code = .ok i)
    (written : immediateOperand? code = some token) : scope.immediate token = .ok i.imm := by
  obtain ⟨word, _, count, filled⟩ := instruction_eq_ok h
  unfold immediateOperand? at written
  rw [word, Option.bind_some] at written
  obtain ⟨front, split⟩ := zip_immediate count written
  rw [split] at filled
  obtain ⟨mid, v, _, read, same⟩ := foldlM_immediate.mp filled
  rw [same]
  exact read

theorem immediate_label {name : List Char} {index : Nat} (named : isName name = true)
    (known : scope.symbols.lookup (String.ofList name) = some (.label index)) :
    scope.immediate name = .ok (Int32.ofNat (index + scope.shift)) := by
  unfold immediate
  rw [readInteger?_name named, readNumber?_name named, known]

end Scope

namespace Survey

variable {s : Survey} {line : Line}

/-- A label means the number of instructions in front of it, unless its line has a fault. -/
theorem label_addLine {name rest : List Char} (label : splitLabel? line.text = some (name, rest))
    (clean : faulty (s.addLine line).diagnostics = false) :
    isName name = true ∧
      (s.addLine line).symbols.lookup (String.ofList name) = some (.label s.slots.size) := by
  have goesOn := extends_addCode (s.labelled line) line (behindLabel line.text)
  rw [← addLine_eq] at goesOn
  have early : faulty (s.labelled line).diagnostics = false := by
    cases first : faulty (s.labelled line).diagnostics with
    | false => rfl
    | true => exact absurd (goesOn.faults first) (by simp [clean])
  unfold labelled at early goesOn
  rw [label] at early goesOn
  dsimp only at early goesOn
  unfold define at early goesOn
  cases defined : s.symbols.define name (.label s.slots.size) with
  | error fault =>
    rw [defined] at early
    exact absurd early (by simp)
  | ok symbols =>
    rw [defined] at goesOn
    obtain ⟨named, _, rfl⟩ := Symbols.define_eq_ok defined
    exact ⟨named, goesOn.symbols (by simp)⟩

end Survey

/-! ### Lines of an accepted text -/

theorem filterMap_lineInstruction? (raws : List (List Char)) :
    raws.filterMap lineInstruction? = (raws.filterMap ownCode?).filterMap codeInstruction? := by
  rw [List.filterMap_filterMap]
  rfl

theorem split_lines {lines : List Line} {before after : List (List Char)} {raw code : List Char}
    (codes : lines.map (·.text) = (before ++ raw :: after).filterMap ownCode?)
    (own : ownCode? raw = some code) :
    ∃ front line back, lines = front ++ line :: back ∧
      front.map (·.text) = before.filterMap ownCode? ∧ line.text = code ∧
      back.map (·.text) = after.filterMap ownCode? := by
  rw [List.filterMap_append, List.filterMap_cons_some own] at codes
  obtain ⟨front, rest, rfl, inFront, inRest⟩ := List.map_eq_append_iff.mp codes
  obtain ⟨line, back, rfl, here, inBack⟩ := List.map_eq_cons_iff.mp inRest
  exact ⟨front, line, back, rfl, inFront, here, inBack⟩

/-- After a pass without faults a label means the number of instructions in front of it. -/
theorem label_foldl {s : Survey} {lines : List Line} {before after : List (List Char)}
    {raw name : List Char} (codes : lines.map (·.text) = (before ++ raw :: after).filterMap ownCode?)
    (label : lineLabel? raw = some name)
    (clean : faulty (lines.foldl Survey.addLine s).diagnostics = false) :
    isName name = true ∧ (lines.foldl Survey.addLine s).symbols.lookup (String.ofList name) =
      some (.label (s.slots.size + (before.filterMap lineInstruction?).length)) := by
  obtain ⟨code, own, starts⟩ := Option.bind_eq_some_iff.mp label
  obtain ⟨⟨_, rest⟩, splits, rfl⟩ := Option.map_eq_some_iff.mp starts
  obtain ⟨front, line, back, rfl, inFront, rfl, _⟩ := split_lines codes own
  rw [List.foldl_append, List.foldl_cons] at clean ⊢
  have slots := congrArg List.length (Survey.slots_foldl (s := s) front)
  rw [List.length_append, List.length_map, List.length_map, Array.length_toList,
    Array.length_toList, inFront, ← filterMap_lineInstruction?] at slots
  obtain ⟨named, known⟩ := Survey.label_addLine splits (Survey.clean_of_foldl clean)
  rw [slots] at known
  exact ⟨named, (Survey.extends_foldl _ back).symbols known⟩

/-- What is known of an accepted text: the lines that it comes to, which the first pass goes through
without a fault. -/
theorem accepted_passes {externals : List Signature} {texts : Texts} {root : String}
    {text : List UInt8} {p : Program} (compiled : compile externals texts root text = .compiled p) :
    ∃ (flat : List (List Char)) (lines : List Line) (user : List Instruction),
      Flattened texts root text flat ∧
      lines.map (·.text) = flat.filterMap ownCode? ∧
      (survey externals texts root text).Assembles p user ∧
      survey externals texts root text = lines.foldl Survey.addLine
        { files := (expand texts root text).files, externals
          diagnostics := (expand texts root text).diagnostics } := by
  obtain ⟨complete, user, assembles⟩ := assembles_of_compiled compiled
  obtain ⟨flat, flattened, gains⟩ := accepted_takes complete
    (Survey.clean_of_ofExpansion assembles.sound)
  refine ⟨flat, _, user, flattened, gains.lines, assembles, ?_⟩
  rw [Array.foldl_toList]
  rfl

theorem accepted_slots {externals : List Signature} {texts : Texts} {root : String}
    {text : List UInt8} {p : Program} {flat : List (List Char)}
    (compiled : compile externals texts root text = .compiled p)
    (flattened : Flattened texts root text flat) :
    (survey externals texts root text).slots.toList.map (·.code) =
      flat.filterMap lineInstruction? := by
  obtain ⟨other, lines, _, flattened', codes, _, passed⟩ := accepted_passes compiled
  cases flattened.unique flattened'
  rw [passed, filterMap_lineInstruction?, ← codes]
  exact (Survey.slots_foldl lines).trans (List.nil_append _)

/-- An accepted program consists of its prologue and behind it one instruction for each line that
holds one, in the order in which these lines come up when all includes are written out. An operand
that names a label means the place of the first instruction behind the label, wherever the operand
and the label stand. -/
theorem labels_land_on_their_instruction {externals : List Signature} {texts : Texts} {root : String}
    {text : List UInt8} {p : Program} (compiled : compile externals texts root text = .compiled p) :
    ∃ flat, Flattened texts root text flat ∧
      (∀ other, Flattened texts root text other → other = flat) ∧
      ∃ first, first = (prologue (survey externals texts root text).strings.toList).length ∧
        p.code.length = first + (flat.filterMap lineInstruction?).length ∧
        (∀ (k : Nat) (x : Instruction × Origin),
          (prologue (survey externals texts root text).strings.toList)[k]? = some x →
            (p.code.word? k).map Instruction.decode = some (.ok x.1)) ∧
        ∀ (k : Nat) (code : List Char), (flat.filterMap lineInstruction?)[k]? = some code →
          ∃ i, (survey externals texts root text).finalScope.instruction code = .ok i ∧
            (p.code.word? (first + k)).map Instruction.decode = some (.ok i) ∧
            ∀ before raw after name, flat = before ++ raw :: after → lineLabel? raw = some name →
              immediateOperand? code = some name →
                i.imm = Int32.ofNat (first + (before.filterMap lineInstruction?).length) := by
  obtain ⟨flat, lines, user, flattened, codes, assembles, passed⟩ := accepted_passes compiled
  -- Both passes go by the same lines: the first one numbers them, the second one reads them.
  have slots := accepted_slots compiled flattened
  have read := assembles.read
  have same : (flat.filterMap lineInstruction?).map
      (survey externals texts root text).finalScope.instruction = user.map .ok := by
    rw [← slots, List.map_map, ← read]
    rfl
  have word : ∀ (k : Nat) (i : Instruction),
      ((prologue (survey externals texts root text).strings.toList).map (·.1) ++ user)[k]? = some i →
        (p.code.word? k).map Instruction.decode = some (.ok i) := by
    intro k i found
    rw [assembles.code, Bytecode.decode_word?_ofInstructions _ k assembles.valid, found]
    rfl
  refine ⟨flat, flattened, fun other h => h.unique flattened, _, rfl, ?_, fun k x found => ?_,
    fun k code found => ?_⟩
  · rw [assembles.length, ← slots, List.length_map]
    rfl
  · refine word k x.1 ?_
    have inside := (List.getElem?_eq_some_iff.mp found).1
    rw [List.getElem?_append_left (by rwa [List.length_map]), List.getElem?_map, found]
    rfl
  · have here := congrArg (·[k]?) same
    simp only [List.getElem?_map, found, Option.map_some] at here
    obtain ⟨i, present, means⟩ := Option.map_eq_some_iff.mp here.symm
    refine ⟨i, means.symm, ?_, fun before raw after name split label written => ?_⟩
    · refine word _ i ?_
      rw [List.getElem?_append_right (by rw [List.length_map]; omega), List.length_map,
        Nat.add_sub_cancel_left, present]
    · have value := Scope.instruction_immediate means.symm written
      rw [split] at codes
      have clean := assembles.sound
      rw [passed] at clean
      obtain ⟨named, known⟩ := label_foldl codes label clean
      rw [← passed] at known
      rw [Scope.immediate_label named known] at value
      refine (Except.ok.inj value).symm.trans (congrArg Int32.ofNat ?_)
      rw [Nat.add_comm]
      exact congrArg (_ + ·) (Nat.zero_add _)

/-- A loop with two labels in front of one instruction and a label at the end, behind a string. -/
def loopText : List UInt8 :=
  Text.toBytes (".string greeting \"a\"\nagain: jz r1, end\nhere:\n.equ STEP -1\n" ++
    "there: addi r1, r1, STEP\njmp again\nend:\n")

theorem jump_to_the_end_is_behind_the_prologue :
    ∃ p, compile [] [] "main.asm" loopText = .compiled p ∧
      ∃ i, (p.code.word? 3).map Instruction.decode = some (.ok i) ∧ i.imm = 6 := by
  have accepted : (compile [] [] "main.asm" loopText).code?.isSome = true := by decide +kernel
  obtain ⟨p, compiled⟩ := Outcome.compiled_of_code? accepted
  obtain ⟨flat, _, unique, first, start, _, _, all⟩ := labels_land_on_their_instruction compiled
  have lines : fileLines loopText = [".string greeting \"a\"".toList, "again: jz r1, end".toList,
      "here:".toList, ".equ STEP -1".toList, "there: addi r1, r1, STEP".toList,
      "jmp again".toList] ++ "end:".toList :: [] := by decide +kernel
  have own : ∀ raw ∈ fileLines loopText, includedPath? raw = none := by
    rw [lines]
    decide +kernel
  cases unique _ ⟨_, .of_own own⟩
  rw [lines] at all
  have three : (prologue (survey [] [] "main.asm" loopText).strings.toList).length = 3 := by
    decide +kernel
  cases start.trans three
  obtain ⟨i, _, word, labels⟩ := all 0 "jz r1, end".toList (by decide +kernel)
  have place := labels _ "end:".toList [] "end".toList rfl (by decide +kernel) (by decide +kernel)
  exact ⟨p, compiled, i, word, place.trans (by decide +kernel)⟩

end RobotArena.Assembly
