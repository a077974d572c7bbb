import RobotArena.Proofs.Assembly.Labels
import RobotArena.Proofs.Assembly.Tokens

/-!
# Values of constants

What a constant names is read in the first pass, when the length of the prologue is not known yet.
The main statement compares what it means there with what it means in the end: the same, unless it
is a label.
-/

namespace RobotArena.Assembly

open Expansion

/-! ### Where names come from -/

/-- Every name is well formed, and those of labels are among some. -/
structure Symbols.Sourced (symbols : Symbols) (labels : List (List Char)) : Prop where
  named : ∀ x ∈ symbols, isName x.1.toList = true
  labelled : ∀ x ∈ symbols, ∀ index, x.2 = .label index → x.1.toList ∈ labels

theorem Symbols.Sourced.mono {symbols : Symbols} {labels more : List (List Char)}
    (h : symbols.Sourced labels) (subset : labels ⊆ more) : symbols.Sourced more :=
  ⟨h.named, fun x member index label => subset (h.labelled x member index label)⟩

theorem sourced_predefined : Symbols.predefined.Sourced [] where
  named := by
    have all : (Symbols.predefined.all fun x => isName x.1.toList) = true := by decide +kernel
    exact fun x member => List.all_eq_true.mp all x member
  labelled x member index label := by
    obtain ⟨y, _, rfl⟩ := List.mem_map.mp member
    cases label

theorem Symbols.mem_of_lookup {symbols : Symbols} {key : String} {symbol : Symbol}
    (known : symbols.lookup key = some symbol) : (key, symbol) ∈ symbols := by
  obtain ⟨before, after, split, _⟩ := List.lookup_eq_some_iff.mp known
  rw [split]
  exact List.mem_append_right _ List.mem_cons_self

/-- The label of a line of code. -/
def codeLabel? (code : List Char) : Option (List Char) :=
  (splitLabel? code).map Prod.fst

theorem filterMap_lineLabel? (raws : List (List Char)) :
    raws.filterMap lineLabel? = (raws.filterMap ownCode?).filterMap codeLabel? := by
  rw [List.filterMap_filterMap]
  exact congrArg (List.filterMap · raws) rfl

namespace Survey

variable {s : Survey} {line : Line} {labels : List (List Char)}

theorem sourced_define {name : List Char} {symbol : Symbol} (h : s.symbols.Sourced labels)
    (label : ∀ index, symbol = .label index → name ∈ labels) :
    (s.define line name symbol).symbols.Sourced labels := by
  unfold define
  split
  · rename_i defined
    obtain ⟨named, _, rfl⟩ := Symbols.define_eq_ok defined
    refine ⟨List.forall_mem_cons.mpr ⟨?_, h.named⟩, List.forall_mem_cons.mpr ⟨?_, h.labelled⟩⟩
    · rw [String.toList_ofList]
      exact named
    · intro index same
      rw [String.toList_ofList]
      exact label index same
  · exact h

theorem sourced_labelled (line : Line) (h : s.symbols.Sourced labels) :
    (s.labelled line).symbols.Sourced (labels ++ (codeLabel? line.text).toList) := by
  have old := h.mono (List.subset_append_left labels (codeLabel? line.text).toList)
  unfold labelled
  split
  · rename_i name rest split
    refine sourced_define old fun index _ => List.mem_append_right _ ?_
    rw [codeLabel?, split]
    exact List.mem_singleton_self name
  · exact old

theorem sourced_addCode {code : List Char} (h : s.symbols.Sourced labels) :
    (s.addCode line code).symbols.Sourced labels := by
  unfold addCode
  split
  · exact h
  · split
    · unfold addConstant
      split
      · split
        · exact sourced_define h nofun
        · exact h
      · exact h
    · split
      · unfold addString
        dsimp only
        split
        · split
          · exact h
          · split
            · exact h
            · exact sourced_define h nofun
        · exact h
      · split <;> exact h

/-- In a pass the names of labels come from lines that start with a label. -/
theorem sourced_foldl (lines : List Line) (h : s.symbols.Sourced labels) :
    (lines.foldl addLine s).symbols.Sourced
      (labels ++ (lines.map (·.text)).filterMap codeLabel?) := by
  induction lines generalizing s labels with
  | nil => exact h.mono (List.subset_append_left _ _)
  | cons line rest ih =>
    have step : (s.addLine line).symbols.Sourced (labels ++ (codeLabel? line.text).toList) := by
      rw [addLine_eq]
      exact sourced_addCode (sourced_labelled line h)
    refine (ih step).mono ?_
    rw [List.append_assoc, List.map_cons]
    cases label : codeLabel? line.text with
    | none => rw [List.filterMap_cons_none label]; exact List.Subset.refl _
    | some name => rw [List.filterMap_cons_some label]; exact List.Subset.refl _

end Survey

/-! ### Constants -/

/-- The name and the value of the constant that a line of code defines. -/
def codeConstant? (code : List Char) : Option (List Char × List Char) :=
  (Text.dropHead? ".equ".toList (behindLabel code)).bind fun rest =>
    match Text.words rest with
    | [name, value] => some (name, value)
    | _ => none

/-- The name and the value of the constant that a line defines. -/
def lineConstant? (raw : List Char) : Option (List Char × List Char) :=
  (ownCode? raw).bind codeConstant?

namespace Survey

variable {s : Survey} {line : Line} {name value : List Char}

/-- A constant means what its value means at this place, unless its line has a fault. -/
theorem constant_addLine (constant : codeConstant? line.text = some (name, value))
    (clean : faulty (s.addLine line).diagnostics = false) :
    ∃ v, (s.labelled line).scope.immediate value = .ok v ∧ isName name = true ∧
      (s.addLine line).symbols = (String.ofList name, .value v) :: (s.labelled line).symbols := by
  obtain ⟨rest, starts, words⟩ := Option.bind_eq_some_iff.mp constant
  split at words
  · rename_i two
    cases words
    have filled : (behindLabel line.text).isEmpty = false := by
      rw [Text.eq_append_of_dropHead? starts]
      rfl
    have step : s.addLine line = (s.labelled line).addConstant line rest := by
      rw [addLine_eq]
      unfold addCode
      rw [filled, if_neg Bool.false_ne_true, starts]
    rw [step] at clean ⊢
    unfold addConstant at clean ⊢
    rw [two] at clean ⊢
    dsimp only at clean ⊢
    cases read : (s.labelled line).scope.immediate value with
    | error fault =>
      rw [read] at clean
      exact absurd clean (by simp)
    | ok v =>
      rw [read] at clean
      dsimp only at clean ⊢
      unfold define at clean ⊢
      cases defined : (s.labelled line).symbols.define name (.value v) with
      | error fault =>
        rw [defined] at clean
        exact absurd clean (by simp)
      | ok symbols =>
        obtain ⟨named, _, rfl⟩ := Symbols.define_eq_ok defined
        exact ⟨v, rfl, named, rfl⟩
  · cases words

end Survey

/-! ### What values mean -/

namespace Scope

variable {scope : Scope} {token : List Char} {v : Int32}

/-- What is read as an immediate operand is a number, which means the same everywhere, or a name. -/
theorem immediate_cases {labels : List (List Char)} (read : scope.immediate token = .ok v)
    (sourced : scope.symbols.Sourced labels) :
    Token token ∧ ((isName token = false ∧ ∀ other : Scope, other.immediate token = .ok v) ∨
      (isName token = true ∧
        ∃ symbol, scope.symbols.lookup (String.ofList token) = some symbol)) := by
  cases integer : readInteger? token with
  | some n =>
    refine ⟨token_of_readInteger? integer, .inl ⟨?_, fun other => ?_⟩⟩
    · refine Bool.eq_false_iff.mpr fun named => ?_
      rw [readInteger?_name named] at integer
      cases integer
    · unfold immediate at read ⊢
      rw [integer] at read ⊢
      exact read
  | none =>
    cases number : readNumber? token with
    | some x =>
      refine ⟨token_of_readNumber? number, .inl ⟨?_, fun other => ?_⟩⟩
      · refine Bool.eq_false_iff.mpr fun named => ?_
        rw [readNumber?_name named] at number
        cases number
      · unfold immediate at read ⊢
        rw [integer, number] at read ⊢
        exact read
    | none =>
      cases known : scope.symbols.lookup (String.ofList token) with
      | none =>
        unfold immediate at read
        rw [integer, number, known] at read
        cases read
      | some symbol =>
        have named := sourced.named _ (Symbols.mem_of_lookup known)
        rw [String.toList_ofList] at named
        exact ⟨.of_isName named, .inr ⟨named, symbol, rfl⟩⟩

end Scope

section Values

variable {s t : Survey} {value : List Char} {u : Int32}

/-- What a value means in the first pass, with no instruction in front, and what it means in the
end. Only labels are moved by the prologue. -/
theorem constant_operand {labels : List (List Char)} (sourced : s.symbols.Sourced labels)
    (goesOn : Survey.Extends s t) (read : s.scope.immediate value = .ok u) :
    Token value ∧ (value ∉ labels → t.finalScope.immediate value = .ok u) ∧
      ∀ index, isName value = true →
        t.symbols.lookup (String.ofList value) = some (.label index) →
          u = Int32.ofNat index ∧ t.finalScope.immediate value =
            .ok (Int32.ofNat (index + (prologue t.strings.toList).length)) := by
  obtain ⟨token, ⟨unnamed, everywhere⟩ | ⟨named, symbol, known⟩⟩ :=
    Scope.immediate_cases read sourced
  · refine ⟨token, fun _ => everywhere _, fun index named => ?_⟩
    rw [unnamed] at named
    cases named
  · have later := goesOn.symbols known
    cases symbol with
    | value v =>
      cases (immediate_name named known).symm.trans read
      refine ⟨token, fun _ => immediate_name named later, fun index _ label => ?_⟩
      cases later.symm.trans label
    | label here =>
      refine ⟨token, fun outside => ?_, fun index _ label => ?_⟩
      · have source := sourced.labelled _ (Symbols.mem_of_lookup known) here rfl
        rw [String.toList_ofList] at source
        exact absurd source outside
      · cases later.symm.trans label
        cases (Scope.immediate_label named known).symm.trans read
        exact ⟨rfl, Scope.immediate_label named later⟩

/-- A constant of a text without faults has kept the meaning that its value had where it was
defined, and the value means that in the end too, unless it is a label. -/
theorem constant_foldl {s : Survey} {lines : List Line} {before after : List (List Char)}
    {raw name : List Char} (sourced : s.symbols.Sourced [])
    (codes : lines.map (·.text) = (before ++ raw :: after).filterMap ownCode?)
    (constant : lineConstant? raw = some (name, value))
    (clean : faulty (lines.foldl Survey.addLine s).diagnostics = false) :
    isName name = true ∧ Token value ∧ ∃ u,
      (lines.foldl Survey.addLine s).finalScope.immediate name = .ok u ∧
      (value ∉ (before ++ [raw]).filterMap lineLabel? →
        (lines.foldl Survey.addLine s).finalScope.immediate value = .ok u) ∧
      ∀ index, isName value = true →
        (lines.foldl Survey.addLine s).symbols.lookup (String.ofList value) =
            some (.label index) →
          u = Int32.ofNat index ∧ (lines.foldl Survey.addLine s).finalScope.immediate value =
            .ok (Int32.ofNat (index +
              (prologue (lines.foldl Survey.addLine s).strings.toList).length)) := by
  obtain ⟨code, own, defines⟩ := Option.bind_eq_some_iff.mp constant
  obtain ⟨front, line, back, rfl, inFront, rfl, _⟩ := split_lines codes own
  -- The value is read with the names of the lines in front, and of the label on its own line.
  rw [List.foldl_append, List.foldl_cons] at clean ⊢
  obtain ⟨u, read, named, defined⟩ := Survey.constant_addLine defines (Survey.clean_of_foldl clean)
  have later := Survey.extends_foldl ((front.foldl Survey.addLine s).addLine line) back
  have goesOn := Survey.extends_addCode ((front.foldl Survey.addLine s).labelled line) line
    (behindLabel line.text)
  rw [← Survey.addLine_eq] at goesOn
  have labels := Survey.sourced_labelled line (Survey.sourced_foldl front sourced)
  have raws : [] ++ (front.map (·.text)).filterMap codeLabel? ++ (codeLabel? line.text).toList =
      (before ++ [raw]).filterMap lineLabel? := by
    have here : lineLabel? raw = codeLabel? line.text := congrArg (Option.bind · codeLabel?) own
    have one : (lineLabel? raw).toList = [raw].filterMap lineLabel? := by
      cases label : lineLabel? raw with
      | none => exact (List.filterMap_cons_none (l := []) label).symm
      | some name => exact (List.filterMap_cons_some (l := []) label).symm
    rw [List.nil_append, List.filterMap_append, filterMap_lineLabel? before, inFront, ← here, one]
  rw [raws] at labels
  obtain ⟨token, plain, label⟩ := constant_operand labels (goesOn.trans later) read
  refine ⟨named, token, u, ?_, plain, label⟩
  refine immediate_name named (later.symbols ?_)
  rw [defined, List.lookup_cons_self]

end Values

end RobotArena.Assembly
