import RobotArena.Proofs.Assembly.Edits
import RobotArena.Proofs.Assembly.Uses
import RobotArena.Proofs.Assembly.Values

/-!
# Named constants

Uses of a constant as an operand may be replaced by what it names. The main statement is when the
program stays the same.
-/

namespace RobotArena.Assembly

open Expansion

/-! ### Lines in which a constant was replaced -/

/-- A line in which one use of a constant may have been replaced. -/
def Edited (old new : List Char) (raw raw' : List Char) : Prop :=
  raw' = raw ∨ Replaced old new raw raw'

section Edits

variable {old new : List Char}

theorem keepsIncludes_edited (token : Token old) (token' : Token new) :
    KeepsIncludes (Edited old new) := by
  rintro raw raw' (rfl | replaced)
  · rfl
  · obtain ⟨_, _, own, own', _⟩ := replaced.lines token token'
    rw [includedPath?_own own, includedPath?_own own']

theorem isMalformed_edited (token : Token old) (token' : Token new) {flat flat' : List (List Char)}
    (edits : List.Forall₂ (Edited old new) flat flat') :
    flat'.any isMalformed = flat.any isMalformed := by
  induction edits with
  | nil => rfl
  | @cons raw raw' _ _ first _ ih =>
    have same : isMalformed raw' = isMalformed raw := by
      rcases first with rfl | replaced
      · rfl
      · obtain ⟨_, _, own, own', _⟩ := replaced.lines token token'
        rw [isMalformed_own own, isMalformed_own own']
    rw [List.any_cons, List.any_cons, same, ih]

/-- The first pass treats an edited line as it treats the old one. -/
theorem Edited.alike (token : Token old) (token' : Token new) {raw raw' : List Char}
    (edited : Edited old new raw raw') : Option.Rel Alike (ownCode? raw) (ownCode? raw') := by
  rcases edited with rfl | replaced
  · cases ownCode? raw' with
    | none => exact .none
    | some code => exact .some (.refl code)
  · obtain ⟨code, code', own, own', alike, _⟩ := replaced.lines token token'
    rw [own, own']
    exact .some alike

/-- If both operands mean something, all edited instructions can be read. They are the old ones if
both operands mean the same, and otherwise only if no line was edited. -/
theorem read_edited (token : Token old) (token' : Token new) {scope : Scope} {u v : Int32}
    (oldMeans : scope.immediate old = .ok u) (newMeans : scope.immediate new = .ok v)
    {flat flat' : List (List Char)} (edits : List.Forall₂ (Edited old new) flat flat')
    {user : List Instruction}
    (read : (flat.filterMap lineInstruction?).map scope.instruction = user.map .ok) :
    ∃ user', (flat'.filterMap lineInstruction?).map scope.instruction = user'.map .ok ∧
      (user' = user ↔ v = u ∨ flat' = flat) := by
  -- On the edits: instructions come up at the same lines of both texts.
  induction edits generalizing user with
  | nil => exact ⟨user, read, by simp⟩
  | @cons raw raw' rest rest' first _ ih =>
    rcases first with rfl | replaced
    · cases held : lineInstruction? raw' with
      | none =>
        rw [List.filterMap_cons_none held] at read ⊢
        obtain ⟨user', read', same⟩ := ih read
        exact ⟨user', read', by rw [same, List.cons.injEq, eq_self, true_and]⟩
      | some code =>
        rw [List.filterMap_cons_some held, List.map_cons] at read ⊢
        cases user with
        | nil => cases read
        | cons i others =>
          obtain ⟨here, read⟩ := List.cons.inj read
          obtain ⟨user', read', same⟩ := ih read
          refine ⟨i :: user', ?_, ?_⟩
          · rw [here, read']
            rfl
          · rw [List.cons.injEq, List.cons.injEq, same, eq_self, eq_self, true_and, true_and]
    · obtain ⟨_, _, _, _, _, core, core', held, held', swaps⟩ := replaced.lines token token'
      rw [List.filterMap_cons_some held, List.map_cons] at read
      rw [List.filterMap_cons_some held', List.map_cons]
      cases user with
      | nil => cases read
      | cons i others =>
        obtain ⟨here, read⟩ := List.cons.inj read
        obtain ⟨user', read', same⟩ := ih read
        obtain ⟨means, swapped⟩ := Scope.instruction_swaps swaps here newMeans
        cases oldMeans.symm.trans means
        refine ⟨{ i with imm := v } :: user', by rw [swapped, read']; rfl, ?_⟩
        have both : v = i.imm → { i with imm := v } :: user' = i :: others := fun equal => by
          rw [same.mpr (.inl equal), equal]
        constructor
        · intro unchanged
          exact .inl (congrArg Instruction.imm (List.cons.inj unchanged).1)
        · rintro (equal | untouched)
          · exact both equal
          · rw [(List.cons.inj untouched).1, held] at held'
            cases held'
            exact both (congrArg Instruction.imm (Except.ok.inj (swapped.symm.trans here)))

end Edits

/-! ### Programs in which a constant was replaced -/

theorem ofNat_add_eq_iff {n : Nat} (small : n ≤ 4097) (index : Nat) :
    Int32.ofNat (index + n) = Int32.ofNat index ↔ n = 0 := by
  constructor
  · intro same
    have words := congrArg (fun i : Int32 => i.toUInt32.toNat) same
    simp only [Int32.toUInt32_ofNat', UInt32.toNat_ofNat'] at words
    omega
  · rintro rfl
    rfl

section Programs

variable {externals : List Signature} {texts texts' : Texts} {root : String}
  {text text' : List UInt8} {p : Program} {flat : List (List Char)} {old new : List Char}

/-- What is known of the first pass through edited texts. -/
theorem passes_edited (compiled : compile externals texts root text = .compiled p)
    (flattened : Flattened texts root text flat) (token : Token old) (token' : Token new)
    (files : EditedTexts (Edited old new) texts texts')
    (own : EditedText (Edited old new) text text') :
    ∃ flat', Flattened texts' root text' flat' ∧ List.Forall₂ (Edited old new) flat flat' ∧
      (expand texts' root text').missing = false ∧
      Survey.Akin (survey externals texts root text) (survey externals texts' root text') ∧
      (survey externals texts' root text').slots.toList.map (·.code) =
        flat'.filterMap lineInstruction? := by
  obtain ⟨complete, user, assembles⟩ := assembles_of_compiled compiled
  have clean := Survey.clean_of_ofExpansion assembles.sound
  obtain ⟨known, flattened', gains⟩ := accepted_takes complete clean
  cases flattened.unique flattened'
  obtain ⟨named, flattens⟩ := flattened
  -- No include was edited, so the edited texts come to the edited lines.
  have keeps := keepsIncludes_edited token token'
  obtain ⟨flat', flattens', edits⟩ := flattens.edited keeps files own
  have noCycle := (noCycle_of_clean complete clean).edited keeps files own
  have atHand := (atHand_of_complete complete).edited keeps files own
  obtain ⟨other, taken, gains'⟩ := expand_takes noCycle atHand
  cases (flattens'.unique taken).1
  have lines : (expand texts root text).lines.toList.map (·.text) = flat.filterMap ownCode? :=
    gains.lines
  have lines' : (expand texts' root text').lines.toList.map (·.text) = flat'.filterMap ownCode? :=
    gains'.lines
  have faults : faulty (expand texts' root text').diagnostics =
      faulty (expand texts root text).diagnostics := by
    rw [gains.faults, gains'.faults, isMalformed_edited token token' edits]
  have start : Survey.Akin
      { files := (expand texts root text).files, externals
        diagnostics := (expand texts root text).diagnostics }
      { files := (expand texts' root text').files, externals
        diagnostics := (expand texts' root text').diagnostics } :=
    ⟨rfl, rfl, faults, rfl, rfl, rfl⟩
  refine ⟨flat', ⟨_, flattens'⟩, edits, gains'.missing, ?_, ?_⟩
  · unfold survey Survey.ofExpansion
    rw [← Array.foldl_toList, ← Array.foldl_toList]
    refine start.foldl ?_
    rw [lines, lines']
    exact List.rel_filterMap (fun _ _ edited => edited.alike token token') edits
  · unfold survey Survey.ofExpansion
    rw [← Array.foldl_toList]
    refine (Survey.slots_foldl _).trans ?_
    rw [lines', ← filterMap_lineInstruction?]
    exact List.nil_append _

/-- What a constant that an accepted text defines means in the end, and what its value means. -/
theorem constant_means {before after : List (List Char)} {raw : List Char}
    (compiled : compile externals texts root text = .compiled p)
    (flattened : Flattened texts root text (before ++ raw :: after))
    (constant : lineConstant? raw = some (old, new)) :
    Token old ∧ Token new ∧ ∃ u v,
      (survey externals texts root text).finalScope.immediate old = .ok u ∧
      (survey externals texts root text).finalScope.immediate new = .ok v ∧
      (v = u ↔ ¬ ((∃ line ∈ before ++ [raw], lineLabel? line = some new) ∧
        ∃ line ∈ before ++ raw :: after, holdsString line = true)) := by
  obtain ⟨flat, lines, user, flattened', codes, assembles, passed⟩ := accepted_passes compiled
  cases flattened.unique flattened'
  have clean := assembles.sound
  rw [passed] at clean ⊢
  have start : Survey.Packed
      { files := (expand texts root text).files, externals
        diagnostics := (expand texts root text).diagnostics } := ⟨rfl, rfl, Nat.zero_le _⟩
  obtain ⟨packed, noString⟩ := Survey.packed_foldl start clean
  obtain ⟨named, token, u, oldMeans, plain, label⟩ :=
    constant_foldl sourced_predefined codes constant clean
  have empty := ((prologue_length_eq_zero _).trans noString).trans
    (and_iff_right (rfl : (#[] : Array StringData).toList = []))
  have strings : (∀ line ∈ lines, isString line.text = false) ↔
      ¬ ∃ line ∈ before ++ raw :: after, holdsString line = true := by
    rw [holdsString_iff codes]
    simp
  refine ⟨.of_isName named, token, u, ?_⟩
  -- A label moves by the length of the prologue, and nothing else moves.
  by_cases labelled : ∃ line ∈ before ++ [raw], lineLabel? line = some new
  · obtain ⟨line, member, starts⟩ := labelled
    have inside : line ∈ before ++ raw :: after := by
      rw [List.append_cons]
      exact List.mem_append_left after member
    obtain ⟨front, back, split⟩ := List.append_of_mem inside
    have codes' := codes
    rw [split] at codes'
    obtain ⟨isLabel, known⟩ := label_foldl codes' starts clean
    obtain ⟨rfl, newMeans⟩ := label _ isLabel known
    refine ⟨_, oldMeans, newMeans, ?_⟩
    rw [ofNat_add_eq_iff packed.length_prologue, empty, strings]
    exact ⟨fun none both => none both.2, fun one all => one ⟨⟨line, member, starts⟩, all⟩⟩
  · have outside : new ∉ (before ++ [raw]).filterMap lineLabel? := fun member => by
      obtain ⟨line, here, starts⟩ := List.mem_filterMap.mp member
      exact labelled ⟨line, here, starts⟩
    exact ⟨u, oldMeans, plain outside, fun _ both => labelled both.1, fun _ => rfl⟩

/-- If uses of a constant as an immediate operand are replaced by what it names, in any of the texts
of an accepted program, the program is accepted again. Its code stays the same unless the constant
names a label, the program defines a string and a use was replaced: a label that a constant names
is not moved by the prologue. -/
theorem constant_is_interchangeable_iff {before after : List (List Char)}
    {raw name value : List Char}
    (compiled : compile externals texts root text = .compiled p)
    (flattened : Flattened texts root text (before ++ raw :: after))
    (constant : lineConstant? raw = some (name, value))
    (files : EditedTexts (Edited name value) texts texts')
    (own : EditedText (Edited name value) text text') :
    ∃ flat' p', Flattened texts' root text' flat' ∧
      List.Forall₂ (Edited name value) (before ++ raw :: after) flat' ∧
      compile externals texts' root text' = .compiled p' ∧
      (p'.code = p.code ↔ ¬ ((∃ line ∈ before ++ [raw], lineLabel? line = some value) ∧
        (∃ line ∈ before ++ raw :: after, holdsString line = true) ∧
        flat' ≠ before ++ raw :: after)) := by
  obtain ⟨token, token', u, v, oldMeans, newMeans, same⟩ :=
    constant_means compiled flattened constant
  obtain ⟨flat', flattened', edits, complete, akin, slots'⟩ :=
    passes_edited compiled flattened token token' files own
  obtain ⟨_, user, assembles⟩ := assembles_of_compiled compiled
  have read : ((before ++ raw :: after).filterMap lineInstruction?).map
      (survey externals texts root text).finalScope.instruction = user.map .ok := by
    rw [← accepted_slots compiled flattened, List.map_map]
    exact assembles.read
  obtain ⟨user', read', unchanged⟩ := read_edited token token' oldMeans newMeans edits read
  rw [← slots', List.map_map, ← akin.finalScope_eq] at read'
  obtain ⟨p', compiled', assembles'⟩ :=
    compiled_of_read complete (akin.faults.trans assembles.sound) read'
  have code : p'.code = p.code ↔ user' = user := by
    have valid := assembles'.valid
    rw [assembles.code, assembles'.code]
    rw [akin.prologue_eq] at valid ⊢
    constructor
    · intro programs
      exact List.append_cancel_left (Bytecode.ofInstructions_inj valid assembles.valid programs)
    · rintro rfl
      rfl
  refine ⟨flat', p', flattened', edits, compiled', ?_⟩
  rw [code, unchanged, same, ← and_assoc, not_and_or (b := flat' ≠ _), not_ne_iff]

end Programs

/-- A line with a label, an immediate operand and a comment. -/
def stepLine (operand : List Char) : List Char :=
  [] ++ ("loop".toList ++ [] ++ ':' :: [' ']) ++
    ("addi".toList ++ ([' '] ++ (("r1, r1".toList ++ ',' :: [' ']) ++ operand))) ++
      ([' '] ++ ';' :: " faster".toList)

/-- A line with an immediate operand and nothing else. -/
def loadLine (operand : List Char) : List Char :=
  [] ++ ("li".toList ++ ([' '] ++ (("r2".toList ++ ',' :: [' ']) ++ operand))) ++ []

/-- A file that defines a constant and uses it, or another operand in its place. -/
def speedFiles (operand : List Char) : Texts :=
  [("drive.asm", flatText [".equ SPEED 3".toList, stepLine operand])]

/-- A text with a string that includes the file and uses the constant too. -/
def speedText (operand : List Char) : List UInt8 :=
  flatText [".string greeting \"a\"".toList, ".include \"drive.asm\"".toList, loadLine operand,
    "jmp loop".toList]

theorem speed_is_interchangeable :
    ∃ p p', compile [] (speedFiles "SPEED".toList) "main.asm" (speedText "SPEED".toList) =
        .compiled p ∧
      compile [] (speedFiles "3".toList) "main.asm" (speedText "3".toList) = .compiled p' ∧
      p'.code = p.code := by
  have accepted : (compile [] (speedFiles "SPEED".toList) "main.asm"
      (speedText "SPEED".toList)).code?.isSome = true := by decide +kernel
  obtain ⟨p, compiled⟩ := Outcome.compiled_of_code? accepted
  have blank : Blanks [' '] := by decide
  have addi : Opcode.ofMnemonic? (String.ofList ("addi".toList.map Char.toLower)) = some .addi := by
    decide
  have li : Opcode.ofMnemonic? (String.ofList ("li".toList.map Char.toLower)) = some .li := by
    decide
  have step : Edited "SPEED".toList "3".toList (stepLine "SPEED".toList) (stepLine "3".toList) :=
    .inr (.intro (.label noBlanks (by decide) noBlanks blank) addi (by decide) blank (by decide)
      (.some (by decide) (by decide) blank) (.comment blank _))
  have load : Edited "SPEED".toList "3".toList (loadLine "SPEED".toList) (loadLine "3".toList) :=
    .inr (.intro (.blank noBlanks) li (by decide) blank (by decide) (.some (by decide) (by decide) blank)
      (.blank noBlanks))
  have drive : ∀ operand ∈ ["SPEED".toList, "3".toList],
      fileLines (flatText [".equ SPEED 3".toList, stepLine operand]) =
        [".equ SPEED 3".toList, stepLine operand] := by decide +kernel
  have main : ∀ operand ∈ ["SPEED".toList, "3".toList], fileLines (speedText operand) =
      [".string greeting \"a\"".toList, ".include \"drive.asm\"".toList, loadLine operand,
        "jmp loop".toList] := by decide +kernel
  have files : EditedTexts (Edited "SPEED".toList "3".toList) (speedFiles "SPEED".toList)
      (speedFiles "3".toList) := by
    refine .cons ⟨rfl, ?_⟩ .nil
    unfold EditedText
    rw [drive _ (by decide), drive _ (by decide)]
    exact .cons (.inl rfl) (.cons step .nil)
  have own : EditedText (Edited "SPEED".toList "3".toList) (speedText "SPEED".toList)
      (speedText "3".toList) := by
    unfold EditedText
    rw [main _ (by decide), main _ (by decide)]
    exact .cons (.inl rfl) (.cons (.inl rfl) (.cons load (.cons (.inl rfl) .nil)))
  have flattened : Flattened (speedFiles "SPEED".toList) "main.asm" (speedText "SPEED".toList)
      ([".string greeting \"a\"".toList] ++ ".equ SPEED 3".toList ::
        [stepLine "SPEED".toList, loadLine "SPEED".toList, "jmp loop".toList]) := by
    refine ⟨["main.asm", "drive.asm"], ?_⟩
    rw [main _ (by decide)]
    have inner : Flattens (speedFiles "SPEED".toList) ["main.asm", "drive.asm"]
        (fileLines (flatText [".equ SPEED 3".toList, stepLine "SPEED".toList]))
        [".equ SPEED 3".toList, stepLine "SPEED".toList] ["main.asm", "drive.asm"] := by
      rw [drive _ (by decide)]
      exact .of_own (by decide +kernel)
    have asks : includedPath? ".include \"drive.asm\"".toList = some "drive.asm" := by
      decide +kernel
    have rest : Flattens (speedFiles "SPEED".toList) ["main.asm", "drive.asm"]
        [loadLine "SPEED".toList, "jmp loop".toList] [loadLine "SPEED".toList, "jmp loop".toList]
        ["main.asm", "drive.asm"] := .of_own (by decide +kernel)
    have new : "drive.asm" ∉ ["main.asm"] := by decide
    have included := Flattens.first asks new rfl inner rest
    exact .keep (by decide +kernel) included
  obtain ⟨flat', p', _, _, compiled', unchanged⟩ :=
    constant_is_interchangeable_iff compiled flattened (by decide +kernel) files own
  have noLabel : ¬ ∃ line ∈ [".string greeting \"a\"".toList] ++ [".equ SPEED 3".toList],
      lineLabel? line = some "3".toList := by decide +kernel
  exact ⟨p, p', compiled, compiled', unchanged.mpr fun moved => noLabel moved.1⟩

/-- A jump to an operand. -/
def jumpLine (operand : List Char) : List Char :=
  [] ++ ("jmp".toList ++ ([' '] ++ ([] ++ operand))) ++ []

/-- A text with a string in which a constant names a label. -/
def topText (operand : List Char) : List UInt8 :=
  flatText [".string S \"a\"".toList, "top: nop".toList, ".equ A top".toList, jumpLine operand]

theorem constant_of_a_label_is_not_interchangeable :
    lineLabel? "top: nop".toList = some "top".toList ∧
      lineConstant? ".equ A top".toList = some ("A".toList, "top".toList) ∧
      EditedText (Edited "A".toList "top".toList) (topText "A".toList) (topText "top".toList) ∧
      ∃ p p', compile [] [] "main.asm" (topText "A".toList) = .compiled p ∧
        compile [] [] "main.asm" (topText "top".toList) = .compiled p' ∧ p'.code ≠ p.code := by
  have accepted : ∀ operand ∈ ["A".toList, "top".toList],
      (compile [] [] "main.asm" (topText operand)).code?.isSome = true := by decide +kernel
  obtain ⟨p, compiled⟩ := Outcome.compiled_of_code? (accepted "A".toList (by decide))
  obtain ⟨p', compiled'⟩ := Outcome.compiled_of_code? (accepted "top".toList (by decide))
  have different : (compile [] [] "main.asm" (topText "top".toList)).code? ≠
      (compile [] [] "main.asm" (topText "A".toList)).code? := by decide +kernel
  have lines : ∀ operand ∈ ["A".toList, "top".toList], fileLines (topText operand) =
      [".string S \"a\"".toList, "top: nop".toList, ".equ A top".toList, jumpLine operand] := by
    decide +kernel
  have jmp : Opcode.ofMnemonic? (String.ofList ("jmp".toList.map Char.toLower)) = some .jmp := by
    decide
  have jump : Edited "A".toList "top".toList (jumpLine "A".toList) (jumpLine "top".toList) :=
    .inr (.intro (.blank noBlanks) jmp (by decide) (by decide) (by decide) .none (.blank noBlanks))
  refine ⟨by decide +kernel, by decide +kernel, ?_, p, p', compiled, compiled', fun same => ?_⟩
  · unfold EditedText
    rw [lines _ (by decide), lines _ (by decide)]
    exact .cons (.inl rfl) (.cons (.inl rfl) (.cons (.inl rfl) (.cons jump .nil)))
  · refine different ?_
    rw [compiled, compiled']
    exact congrArg some same

end RobotArena.Assembly
