import RobotArena.Proofs.Assembly.Passes

/-!
# Includes are textual

What a program is assembled to depends on the code of its lines only, not on the files that they
come from. The main statement is that a text assembles to the code that it has with all includes
written out.
-/

namespace RobotArena.Assembly

open Expansion

/-! ### Surveys that differ in where lines come from -/

namespace Survey

/-- Surveys that have found the same, up to the origins of lines and the texts of faults. -/
structure Like (s t : Survey) : Prop where
  externals : t.externals = s.externals
  symbols : t.symbols = s.symbols
  faults : faulty t.diagnostics = faulty s.diagnostics
  slots : t.slots.toList.map (·.code) = s.slots.toList.map (·.code)
  strings : t.strings.toList.map StringData.place = s.strings.toList.map StringData.place
  cursor : t.cursor = s.cursor

theorem Like.akin {s t : Survey} (alike : Like s t) : Akin s t where
  externals := alike.externals
  symbols := alike.symbols
  faults := alike.faults
  count := by simpa using congrArg List.length alike.slots
  strings := alike.strings
  cursor := alike.cursor

/-- Lines with the same code do the same to surveys that have found the same. -/
theorem Like.foldl {s t : Survey} (found : Like s t) {lines others : List Line}
    (same : others.map (·.text) = lines.map (·.text)) :
    Like (lines.foldl Survey.addLine s) (others.foldl Survey.addLine t) := by
  have alike : List.Forall₂ Alike (lines.map (·.text)) (others.map (·.text)) := by
    rw [same]
    exact List.forall₂_same.mpr fun code _ => Alike.refl code
  have passed := found.akin.foldl alike
  have slots : (others.foldl Survey.addLine t).slots.toList.map (·.code) =
      (lines.foldl Survey.addLine s).slots.toList.map (·.code) := by
    rw [slots_foldl, slots_foldl, same, found.slots]
  exact ⟨passed.externals, passed.symbols, passed.faults, slots, passed.strings, passed.cursor⟩

theorem Like.assemble {s t : Survey} (alike : Like s t) :
    t.assemble.code = s.assemble.code ∧
      t.assemble.diagnostics.any (·.isError) = s.assemble.diagnostics.any (·.isError) := by
  have start := alike.akin.prologue_eq
  have scope := alike.akin.finalScope_eq
  have slots := alike.slots
  constructor
  · have read := congrArg (List.filterMap fun code => (s.finalScope.instruction code).toOption) slots
    rw [List.filterMap_map, List.filterMap_map] at read
    rw [assemble_code, assemble_code, start, scope]
    exact congrArg (fun user => Bytecode.ofInstructions (_ ++ user)) read
  · have bad := congrArg (List.any · fun code => !(s.finalScope.instruction code).toBool) slots
    simp only [List.any_map] at bad
    rw [assemble_faulty, assemble_faulty, alike.faults, scope]
    exact congrArg (faulty s.diagnostics || ·) bad

end Survey

/-! ### Compiling the text that was written out -/

/-- The code of a compile that ends with a program. -/
def Outcome.code? : Outcome → Option Bytecode
  | .compiled program => some program.code
  | .incomplete => none
  | .failed _ => none

theorem Outcome.compiled_of_code? {outcome : Outcome} (accepted : outcome.code?.isSome = true) :
    ∃ p, outcome = .compiled p := by
  cases outcome with
  | compiled p => exact ⟨p, rfl⟩
  | incomplete => cases accepted
  | failed => cases accepted

theorem code?_ofExpansion {externals : List Signature} {e e' : Expansion}
    (complete : e.missing = false) (complete' : e'.missing = false)
    (lines : e'.lines.toList.map (·.text) = e.lines.toList.map (·.text))
    (faults : faulty e'.diagnostics = faulty e.diagnostics) :
    (Outcome.ofExpansion externals e').code? = (Outcome.ofExpansion externals e).code? := by
  have start : Survey.Like { files := e.files, externals, diagnostics := e.diagnostics }
      { files := e'.files, externals, diagnostics := e'.diagnostics } :=
    ⟨rfl, rfl, faults, rfl, rfl, rfl⟩
  have alike : Survey.Like (.ofExpansion externals e) (.ofExpansion externals e') := by
    unfold Survey.ofExpansion
    rw [← Array.foldl_toList, ← Array.foldl_toList]
    exact start.foldl lines
  obtain ⟨code, bad⟩ := alike.assemble
  unfold Outcome.ofExpansion
  rw [complete, complete']
  simp only [Bool.false_eq_true, if_false, bad]
  split
  · rfl
  · exact congrArg some code

theorem request_chomp (raw : List Char) : lineRequest? (Text.chomp raw) = lineRequest? raw := by
  unfold lineRequest?
  rw [codeText?_chomp]

/-- A text without includes is taken in line by line, whatever it is called. -/
theorem expand_own (available : Texts) (name : String) {text : List UInt8}
    (own : ∀ raw ∈ fileLines text, includedPath? raw = none) :
    (expand available name text).named = #[name] ∧
      Gains (.start name) (expand available name text) (fileLines text) := by
  -- Nothing is included, so the text is the only file that is reached from it.
  have alone : ∀ path, ¬ Includes available name text name path := by
    rintro path ⟨source, found, raw, member, asks⟩
    rw [sourceOf?, if_pos rfl] at found
    cases found
    simp [own raw member] at asks
  have reached : ∀ path, Relation.ReflTransGen (Includes available name text) name path →
      path = name := by
    intro path steps
    rcases Relation.ReflTransGen.cases_head steps with same | ⟨next, first, _⟩
    · exact same.symm
    · exact absurd first (alone next)
  have noCycle : NoCycle available name text := by
    intro path start around
    cases reached path start
    obtain ⟨next, first, _⟩ := Relation.TransGen.head'_iff.mp around
    exact alone next first
  have atHand : AtHand available name text := by
    intro path start
    cases reached path start
    rw [sourceOf?, if_pos rfl]
    rfl
  obtain ⟨out, flattens, gains⟩ := expand_takes noCycle atHand
  obtain ⟨rfl, named⟩ := flattens.unique (.of_own own)
  exact ⟨Array.toList_inj.mp named, gains⟩

theorem expand_flatText (available : Texts) (name : String) {flat : List (List Char)}
    (own : ∀ raw ∈ flat, includedPath? raw = none) (whole : ∀ raw ∈ flat, '\n' ∉ raw) :
    (expand available name (flatText flat)).named = #[name] ∧
      Gains (.start name) (expand available name (flatText flat)) flat := by
  have lines : fileLines (flatText flat) = flat.map Text.chomp := by
    unfold fileLines flatText
    rw [Text.decodeLossy_encode, Text.lines_written whole]
  have plain : ∀ raw ∈ fileLines (flatText flat), includedPath? raw = none := by
    intro raw member
    rw [lines] at member
    obtain ⟨line, inside, rfl⟩ := List.mem_map.mp member
    rw [includedPath?, request_chomp]
    exact own line inside
  obtain ⟨named, gains⟩ := expand_own available name plain
  refine ⟨named, gains.missing, ?_, ?_⟩
  · have codes : flat.filterMap (ownCode? ∘ Text.chomp) = flat.filterMap ownCode? := by
      congr 1
      funext raw
      rw [Function.comp_apply, ownCode?, ownCode?, codeText?_chomp]
    rw [gains.lines, lines, List.filterMap_map, codes]
  · have bad : isMalformed ∘ Text.chomp = isMalformed := by
      funext raw
      simp only [Function.comp_apply, isMalformed, request_chomp]
    rw [gains.faults, lines, List.any_map, bad]

/-- A text whose includes are all at hand and form no cycle compiles to the same code as the text
that it comes to when each file is put in the place of its first include and later includes of it
are dropped; either both compiles succeed or neither. -/
theorem includes_are_textual (externals : List Signature) {texts : Texts} {root : String}
    {text : List UInt8} (noCycle : NoCycle texts root text) (atHand : AtHand texts root text) :
    ∃ flat, Flattened texts root text flat ∧
      (∀ other, Flattened texts root text other → other = flat) ∧
      (∀ raw ∈ flat, includedPath? raw = none) ∧
      compile externals texts root text ≠ .incomplete ∧
      ∀ (available : Texts) (name : String),
        (expand available name (flatText flat)).asked = [] ∧
        compile externals available name (flatText flat) ≠ .incomplete ∧
        (compile externals available name (flatText flat)).code? =
          (compile externals texts root text).code? := by
  obtain ⟨flat, flattens, gains⟩ := expand_takes noCycle atHand
  have own := flattens.own
  have whole := flattens.whole fun raw => Text.newline_of_mem_lines
  have ended : ∀ {e : Expansion}, e.missing = false →
      Outcome.ofExpansion externals e ≠ .incomplete := by
    intro e complete
    unfold Outcome.ofExpansion
    rw [complete, if_neg Bool.false_ne_true]
    dsimp only
    split <;> nofun
  refine ⟨flat, ⟨_, flattens⟩, fun other h => ?_, own, ended gains.missing, fun available name => ?_⟩
  · obtain ⟨named, h⟩ := h
    exact (h.unique flattens).1
  · obtain ⟨named, gains'⟩ := expand_flatText available name own whole
    refine ⟨by rw [asked, named]; rfl, ended gains'.missing, ?_⟩
    exact code?_ofExpansion gains.missing gains'.missing (by rw [gains.lines, gains'.lines]; rfl)
      (by rw [gains.faults, gains'.faults]; rfl)

/-- Files that include each other twice over: the last one is included by both others. -/
def sharedFiles : Texts :=
  [("walk.asm", Text.toBytes ".include \"size.asm\"\nwalk: addi r1, r1, STEP\n.include \"size.asm\"\n"),
    ("size.asm", Text.toBytes ".equ STEP 4\r\n.string greeting \"hi; there\" ; a comment")]

/-- The text that includes them. -/
def sharingText : List UInt8 :=
  Text.toBytes "li r2, STEP_0\n.equ STEP_0 2\n.include \"walk.asm\"\n.include \"size.asm\"\njmp walk\n"

theorem shared_files_are_textual :
    NoCycle sharedFiles "main.asm" sharingText ∧ AtHand sharedFiles "main.asm" sharingText ∧
      (compile [] sharedFiles "main.asm" sharingText).code?.isSome = true ∧
      ∃ flat, Flattened sharedFiles "main.asm" sharingText flat ∧
        ∀ available name, (compile [] available name (flatText flat)).code? =
          (compile [] sharedFiles "main.asm" sharingText).code? := by
  have noCycle : NoCycle sharedFiles "main.asm" sharingText :=
    .of_rank (fun path => if path = "main.asm" then 2 else if path = "walk.asm" then 1 else 0)
      (by decide +kernel)
  have atHand : AtHand sharedFiles "main.asm" sharingText := .of_files (by decide +kernel)
  obtain ⟨flat, flattened, _, _, _, same⟩ := includes_are_textual [] noCycle atHand
  exact ⟨noCycle, atHand, by decide +kernel, flat, flattened, fun available name =>
    (same available name).2.2⟩

end RobotArena.Assembly
