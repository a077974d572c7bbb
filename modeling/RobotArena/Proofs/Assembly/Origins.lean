import RobotArena.Proofs.Assembly.Labels
import RobotArena.Proofs.Assembly.Traces

/-!
# Origins of instructions

A program has a table of origins beside its instructions. The main statement is that each entry is
the line that its instruction was read from, in the file that the line stands in. The instructions of
the prologue come from the lines that define the strings.
-/

namespace RobotArena.Assembly

open Expansion

/-! ### Entries of the table -/

/-- An origin is a line of a file, which is one of some files by its number. -/
structure Locates (files : List String) (origin : Origin) (line : Placed) : Prop where
  path : files[origin.file.toNat]? = some line.path
  number : origin.line = line.number

/-- An instruction with its origin and the same instruction with its line. -/
structure Located (files : List String) (x : Instruction × Origin) (y : Instruction × Placed) :
    Prop where
  same : x.1 = y.1
  origin : Locates files x.2 y.2

theorem StandsFor.locates {files : List String} {line : Line} {p : Placed}
    (h : StandsFor files line p) : Locates files line.origin p :=
  ⟨h.path, h.number⟩

/-! ### The prologue -/

/-- A string with the line that defines it. -/
structure StoredFor (line : Placed) (x : StringData × Placed) : Prop where
  same : x.2 = line
  text : ∃ name text, lineString? line.raw = some (name, text) ∧ x.1.bytes = terminated text

/-- The instructions that store some strings, each with the line of its string. The last one clears
the register that was used, and has the line of the first string. -/
def storesOf : List (StringData × Placed) → List (Instruction × Placed)
  | [] => []
  | first :: rest =>
    ((first :: rest).flatMap fun x => x.1.store.map (·, x.2)) ++
      [({ op := .li, a := valueRegister }, first.2)]

section Storing

variable {files : List String} {strings : List (StringData × Placed)}

theorem located_store {data : StringData} {line : Placed} (h : Locates files data.origin line) :
    List.Forall₂ (Located files) (data.store.map (·, data.origin)) (data.store.map (·, line)) := by
  rw [List.forall₂_map_left_iff, List.forall₂_map_right_iff, List.forall₂_same]
  exact fun i _ => ⟨rfl, h⟩

theorem located_flatMap (h : ∀ x ∈ strings, Locates files x.1.origin x.2) :
    List.Forall₂ (Located files)
      ((strings.map Prod.fst).flatMap fun data => data.store.map (·, data.origin))
      (strings.flatMap fun x => x.1.store.map (·, x.2)) := by
  induction strings with
  | nil => exact .nil
  | cons x rest ih =>
    obtain ⟨first, later⟩ := List.forall_mem_cons.mp h
    rw [List.map_cons, List.flatMap_cons, List.flatMap_cons]
    exact List.rel_append (located_store first) (ih later)

theorem located_prologue (h : ∀ x ∈ strings, Locates files x.1.origin x.2) :
    List.Forall₂ (Located files) (prologue (strings.map Prod.fst)) (storesOf strings) := by
  cases strings with
  | nil => exact .nil
  | cons first rest =>
    have last := h first List.mem_cons_self
    exact List.rel_append (located_flatMap h) (.cons ⟨rfl, last⟩ .nil)

end Storing

section Lines

variable {files : List String} {lines : List Line} {placed : List Placed}

theorem holdsString_of_standsFor {line : Line} {p : Placed} (h : StandsFor files line p) :
    isString line.text = true ↔ holdsString p.raw = true := by
  rw [holdsString, h.code, Option.any_some]

/-- The strings that some lines define, each with its line. -/
theorem exists_strings {found : List StringData}
    (stand : List.Forall₂ (StandsFor files) lines placed)
    (defined : List.Forall₂ Survey.DefinedBy lines found) :
    ∃ strings, strings.map Prod.fst = found ∧ List.Forall₂ StoredFor placed strings ∧
      ∀ x ∈ strings, Locates files x.1.origin x.2 := by
  induction stand generalizing found with
  | nil =>
    cases defined
    exact ⟨[], rfl, .nil, List.forall_mem_nil _⟩
  | @cons line p lines placed first _ ih =>
    cases defined with
    | @cons _ data _ found here later =>
      obtain ⟨strings, rfl, stored, located⟩ := ih later
      obtain ⟨name, text, defines, bytes⟩ := here.defines
      have read : lineString? p.raw = some (name, text) := by
        rw [lineString?, first.code]
        exact defines
      refine ⟨(data, p) :: strings, rfl, .cons ⟨rfl, name, text, read, bytes⟩ stored, ?_⟩
      exact List.forall_mem_cons.mpr ⟨here.origin ▸ first.locates, located⟩

/-! ### The instructions of the text -/

/-- An instruction with the line that it is read from. -/
structure ReadFrom (scope : Scope) (line : Placed) (x : Instruction × Placed) : Prop where
  same : x.2 = line
  code : ∃ code, lineInstruction? line.raw = some code ∧ scope.instruction code = .ok x.1

/-- A slot holds the instruction of a line. -/
structure Fills (files : List String) (slot : Slot) (line : Placed) : Prop where
  code : lineInstruction? line.raw = some slot.code
  origin : Locates files slot.line.origin line

theorem fills_slots (stand : List.Forall₂ (StandsFor files) lines placed) :
    List.Forall₂ (Fills files) (lines.filterMap Line.slot?)
      (placed.filter fun p => (lineInstruction? p.raw).isSome) := by
  induction stand with
  | nil => exact .nil
  | @cons line p lines placed first _ ih =>
    have same : lineInstruction? p.raw = codeInstruction? line.text := by
      rw [lineInstruction?, first.code]
      rfl
    cases held : codeInstruction? line.text with
    | none =>
      rw [List.filterMap_cons_none (by rw [Line.slot?, held]; rfl),
        List.filter_cons_of_neg (by simp [same, held])]
      exact ih
    | some code =>
      rw [List.filterMap_cons_some (by rw [Line.slot?, held]; rfl),
        List.filter_cons_of_pos (by simp [same, held])]
      exact .cons ⟨same.trans held, first.locates⟩ ih

/-- The instructions that some slots are read as, each with its line. -/
theorem exists_user {scope : Scope} {slots : List Slot} {read : List Instruction}
    (fills : List.Forall₂ (Fills files) slots placed)
    (means : slots.map (fun slot => scope.instruction slot.code) = read.map .ok) :
    ∃ user, List.Forall₂ (ReadFrom scope) placed user ∧
      List.Forall₂ (Located files) (scope.listed slots) user := by
  induction fills generalizing read with
  | nil => exact ⟨[], .nil, .nil⟩
  | @cons slot p slots placed first _ ih =>
    obtain ⟨i, later, rfl, here, others⟩ := List.map_eq_cons_iff.mp means.symm
    obtain ⟨user, readFrom, located⟩ := ih others.symm
    have here : scope.instruction slot.code = .ok i := here.symm
    refine ⟨(i, p) :: user, .cons ⟨rfl, _, first.code, here⟩ readFrom, ?_⟩
    rw [Scope.listed, List.filterMap_cons_some (by rw [here]; rfl)]
    exact .cons ⟨rfl, first.origin⟩ located

/-- The lines that hold a string come up in the same order in an expansion. -/
theorem standsFor_strings {flat : List Placed}
    (stand : List.Forall₂ (StandsFor files) lines (flat.filter Placed.holdsCode)) :
    List.Forall₂ (StandsFor files) (lines.filter fun line => isString line.text)
      (flat.filter fun p => holdsString p.raw) := by
  have same : (flat.filter Placed.holdsCode).filter (fun p => holdsString p.raw) =
      flat.filter fun p => holdsString p.raw := by
    rw [List.filter_filter]
    refine List.filter_congr fun p _ => ?_
    unfold Placed.holdsCode holdsString
    cases ownCode? p.raw <;> simp
  rw [← same]
  exact List.rel_filter (R := StandsFor files) (fun _ _ h => holdsString_of_standsFor h) stand

theorem filter_lineInstruction? (flat : List Placed) :
    (flat.filter Placed.holdsCode).filter (fun p => (lineInstruction? p.raw).isSome) =
      flat.filter fun p => (lineInstruction? p.raw).isSome := by
  rw [List.filter_filter]
  refine List.filter_congr fun p _ => ?_
  unfold Placed.holdsCode lineInstruction?
  cases ownCode? p.raw <;> simp

end Lines

/-! ### The table of a program -/

/-- The path of a line's file and the number of the line, counted from one. -/
def Placed.display (line : Placed) : String :=
  s!"{line.path}:{line.number + 1}"

/-- The table of origins of a program gives each of its instructions a line. -/
structure Charted (p : Program) (lined : List (Instruction × Placed)) : Prop where
  code : p.code = .ofInstructions (lined.map Prod.fst)
  length : lined.length = p.code.length
  size : p.debug.origins.size = p.code.length
  entry : ∀ (k : Nat) (x : Instruction × Placed), lined[k]? = some x →
    ∃ origin, p.debug.origins[k]? = some origin ∧ Locates p.debug.files origin x.2
  location : ∀ pc : UInt32, p.debug.location? pc =
    lined[pc.toNat]?.map fun x : Instruction × Placed => x.2.display
  known : ∀ pc : UInt32, pc.toNat < p.code.length → (p.debug.location? pc).isSome = true

theorem Located.exists_entry {files : List String} {listing : List (Instruction × Origin)}
    {lined : List (Instruction × Placed)} (located : List.Forall₂ (Located files) listing lined)
    {k : Nat} {y : Instruction × Placed} (found : lined[k]? = some y) :
    ∃ x, listing[k]? = some x ∧ Located files x y := by
  induction located generalizing k with
  | nil => cases found
  | @cons x _ listing lined here _ ih =>
    cases k with
    | zero =>
      cases found
      exact ⟨x, rfl, here⟩
    | succ k => exact ih found

theorem Located.charted {p : Program} {files : List String}
    {listing : List (Instruction × Origin)} {lined : List (Instruction × Placed)}
    (code : p.code = .ofInstructions (listing.map (·.1)))
    (debug : p.debug = ⟨files, (listing.map (·.2)).toArray⟩)
    (located : List.Forall₂ (Located files) listing lined) : Charted p lined := by
  have same : listing.map (·.1) = lined.map Prod.fst := by
    refine List.forall₂_eq_eq_eq ▸ ?_
    rw [List.forall₂_map_left_iff, List.forall₂_map_right_iff]
    exact located.imp fun _ _ h => h.same
  have length : lined.length = p.code.length := by
    rw [code, Bytecode.length_ofInstructions, List.length_map, located.length_eq]
  have entry : ∀ (k : Nat) (x : Instruction × Placed), lined[k]? = some x →
      ∃ origin, p.debug.origins[k]? = some origin ∧ Locates p.debug.files origin x.2 := by
    intro k x found
    obtain ⟨y, listed, h⟩ := Located.exists_entry located found
    refine ⟨y.2, ?_, debug ▸ h.origin⟩
    rw [debug, List.getElem?_toArray, List.getElem?_map, listed]
    rfl
  have size : p.debug.origins.size = p.code.length := by
    rw [debug, List.size_toArray, List.length_map, ← length, located.length_eq]
  have location : ∀ pc : UInt32, p.debug.location? pc =
      lined[pc.toNat]?.map fun x : Instruction × Placed => x.2.display := by
    intro pc
    unfold DebugInfo.location?
    cases found : lined[pc.toNat]? with
    | none =>
      have beyond : p.debug.origins[pc.toNat]? = none := by
        rw [Array.getElem?_eq_none_iff, size, ← length]
        exact List.getElem?_eq_none_iff.mp found
      rw [beyond]
      rfl
    | some x =>
      obtain ⟨origin, here, h⟩ := entry _ x found
      rw [here]
      show (p.debug.files[origin.file.toNat]?.bind fun path =>
        some s!"{path}:{origin.line + 1}") = _
      rw [h.path, h.number]
      rfl
  refine ⟨same ▸ code, length, size, entry, location, fun pc inside => ?_⟩
  rw [location, Option.isSome_map, List.getElem?_eq_getElem (by rw [length]; exact inside)]
  rfl

section Program

variable {externals : List Signature} {texts : Texts} {root : String} {text : List UInt8}
  {p : Program}

theorem files_survey (externals : List Signature) (texts : Texts) (root : String)
    (text : List UInt8) :
    (survey externals texts root text).files = (expand texts root text).files := by
  show (Survey.ofExpansion externals (expand texts root text)).files = _
  unfold Survey.ofExpansion
  rw [← Array.foldl_toList]
  exact (Survey.extends_foldl _ _).files

/-- The instructions of an accepted program go with the lines of the files that it was expanded
from, if there are fewer than 65536 of them: every instruction of the prologue comes from the line
that defines its string, the last one from the line of the first string, and every other instruction
from the line that it is read from. The table of origins has one entry for each instruction, which
gives the path and the number of that line. -/
theorem instructions_keep_their_lines
    (compiled : compile externals texts root text = .compiled p)
    (few : (expand texts root text).files.size < 65536) :
    ∃ flat, Traced texts root text flat ∧ (∀ other, Traced texts root text other → other = flat) ∧
      ∃ strings user,
        strings.map Prod.fst = (survey externals texts root text).strings.toList ∧
        List.Forall₂ StoredFor (flat.filter fun line => holdsString line.raw) strings ∧
        List.Forall₂ (ReadFrom (survey externals texts root text).finalScope)
          (flat.filter fun line => (lineInstruction? line.raw).isSome) user ∧
        Charted p (storesOf strings ++ user) := by
  obtain ⟨complete, is, assembles⟩ := assembles_of_compiled compiled
  have clean := Survey.clean_of_ofExpansion assembles.sound
  obtain ⟨flat, traced, stand⟩ := expand_traced complete clean few
  have sound : faulty (survey externals texts root text).diagnostics = false := assembles.sound
  have passed : survey externals texts root text =
      (expand texts root text).lines.toList.foldl Survey.addLine
        { files := (expand texts root text).files, externals
          diagnostics := (expand texts root text).diagnostics } := by
    rw [Array.foldl_toList]
    rfl
  rw [passed] at sound
  obtain ⟨found, all, defined⟩ := Survey.strings_pass sound
  obtain ⟨strings, rfl, stored, located⟩ := exists_strings (standsFor_strings stand) defined
  have slots : (survey externals texts root text).slots.toList =
      (expand texts root text).lines.toList.filterMap Line.slot? := by
    rw [passed]
    exact (Survey.slots_pass _).trans (List.nil_append _)
  have fills := fills_slots stand
  rw [filter_lineInstruction?, ← slots] at fills
  obtain ⟨user, readFrom, listed⟩ := exists_user fills assembles.read
  have known : strings.map Prod.fst = (survey externals texts root text).strings.toList := by
    rw [passed]
    exact (all.trans (List.nil_append _)).symm
  refine ⟨flat, traced, fun other => traced.unique, strings, user, known, stored, readFrom, ?_⟩
  cases (compiled_iff.mp compiled).2.2
  obtain ⟨code, debug⟩ := (survey externals texts root text).assemble_listing
  rw [files_survey] at debug
  refine Located.charted code debug ?_
  rw [Survey.listing, ← known]
  exact List.rel_append (located_prologue located) listed

end Program

/-- Where an instruction of a compiled program comes from. -/
def Outcome.location? (outcome : Outcome) (pc : UInt32) : Option String :=
  match outcome with
  | .compiled p => p.debug.location? pc
  | _ => none

/-- A file with an instruction behind a blank line. -/
def stepFiles : Texts :=
  [("step.asm", Text.toBytes "\nstep: addi r1, r1, 1\n")]

/-- A text that includes the file between a string and an instruction. -/
def stepText : List UInt8 :=
  Text.toBytes "nop\n.string S \"a\"\n.include \"step.asm\"\njmp step\n"

theorem included_instruction_keeps_its_line :
    ∃ p, compile [] stepFiles "main.asm" stepText = .compiled p ∧
      (expand stepFiles "main.asm" stepText).files.size < 65536 ∧
      p.debug.location? 4 = some "step.asm:2" ∧ ∃ lined, Charted p lined := by
  have accepted : (compile [] stepFiles "main.asm" stepText).code?.isSome = true := by
    decide +kernel
  have few : (expand stepFiles "main.asm" stepText).files.size < 65536 := by decide +kernel
  have place : (compile [] stepFiles "main.asm" stepText).location? 4 = some "step.asm:2" := by
    decide +kernel
  obtain ⟨p, compiled⟩ := Outcome.compiled_of_code? accepted
  obtain ⟨_, _, _, strings, user, _, _, _, charted⟩ := instructions_keep_their_lines compiled few
  rw [compiled] at place
  exact ⟨p, compiled, few, place, _, charted⟩

end RobotArena.Assembly
