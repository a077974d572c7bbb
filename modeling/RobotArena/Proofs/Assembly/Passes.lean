import RobotArena.Proofs.Assembly.Strings

/-!
# What the first pass depends on

The first pass reads labels and directives. Of an instruction it only notes that there is one. The
main statement is that lines that differ in their instructions alone leave it with the same names,
strings and number of slots.
-/

namespace RobotArena.Assembly

/-! ### What a line holds -/

/-- The instruction in what a line holds besides its label. Directives start with a point. -/
def bareInstruction? (code : List Char) : Option (List Char) :=
  if code.isEmpty || code.head? == some '.' then none else some code

/-- The instruction in a line of code, without the line's label. -/
def codeInstruction? (code : List Char) : Option (List Char) :=
  bareInstruction? (behindLabel code)

/-- The slot of a line that holds an instruction. -/
def Line.slot? (line : Line) : Option Slot :=
  (codeInstruction? line.text).map (Slot.mk line)

/-- Lines of code with the same label, and behind it the same or an instruction each. -/
structure Alike (code code' : List Char) : Prop where
  label : (splitLabel? code').map Prod.fst = (splitLabel? code).map Prod.fst
  behind : behindLabel code' = behindLabel code ∨
    ((codeInstruction? code).isSome = true ∧ (codeInstruction? code').isSome = true)

theorem Alike.refl (code : List Char) : Alike code code := ⟨rfl, .inl rfl⟩

theorem head?_of_dropHead? {code word rest : List Char} (directive : word.head? = some '.')
    (h : Text.dropHead? word code = some rest) : code.head? = some '.' := by
  rw [Text.eq_append_of_dropHead? h]
  cases word with
  | nil => cases directive
  | cons c cs => exact directive

namespace Survey

variable {s t : Survey} {code : List Char}

/-! ### What a line adds to the slots -/

section Slots

variable {line : Line}

theorem slots_define (name : List Char) (symbol : Symbol) :
    (s.define line name symbol).slots = s.slots := by
  unfold define
  split <;> rfl

theorem slots_addConstant (rest : List Char) : (s.addConstant line rest).slots = s.slots := by
  unfold addConstant
  split
  · split
    · exact slots_define _ _
    · rfl
  · rfl

theorem slots_addString (rest : List Char) : (s.addString line rest).slots = s.slots := by
  unfold addString
  dsimp only
  split
  · split
    · rfl
    · split
      · rfl
      · exact slots_define _ _
  · rfl

theorem slots_labelled : (s.labelled line).slots = s.slots := by
  unfold labelled
  split
  · exact slots_define _ _
  · rfl

/-- An instruction is a slot and nothing else. -/
theorem addCode_instruction (instruction : (bareInstruction? code).isSome = true) :
    s.addCode line code = { s with slots := s.slots.push ⟨line, code⟩ } := by
  unfold bareInstruction? at instruction
  split at instruction
  · cases instruction
  · rename_i plain
    rw [Bool.or_eq_true, not_or, beq_iff_eq] at plain
    obtain ⟨filled, point⟩ := plain
    have other : ∀ {word : List Char}, word.head? = some '.' → Text.dropHead? word code = none := by
      intro word directive
      cases starts : Text.dropHead? word code with
      | none => rfl
      | some rest => exact absurd (head?_of_dropHead? directive starts) point
    unfold addCode
    rw [if_neg filled, other rfl, other rfl]
    dsimp only
    rw [if_neg (by simpa using point)]

theorem slots_addCode : (s.addCode line code).slots.toList =
    s.slots.toList ++ ((bareInstruction? code).map (Slot.mk line)).toList := by
  cases held : bareInstruction? code with
  | some inside =>
    rw [addCode_instruction (by rw [held]; rfl)]
    unfold bareInstruction? at held
    split at held
    · cases held
    · cases held
      exact Array.toList_push
  | none =>
    have kept : (s.addCode line code).slots = s.slots := by
      unfold addCode
      split
      · rfl
      · rename_i filled
        split
        · exact slots_addConstant _
        · split
          · exact slots_addString _
          · split
            · rfl
            · rename_i plain
              simp [bareInstruction?, filled, plain] at held
    rw [kept]
    exact (List.append_nil _).symm

theorem slots_addLine :
    (s.addLine line).slots.toList = s.slots.toList ++ line.slot?.toList := by
  rw [addLine_eq, slots_addCode, slots_labelled, Line.slot?, codeInstruction?]

end Slots

/-- A pass finds one slot for each line that holds an instruction. -/
theorem slots_pass (lines : List Line) :
    (lines.foldl addLine s).slots.toList = s.slots.toList ++ lines.filterMap Line.slot? := by
  induction lines generalizing s with
  | nil => exact (List.append_nil _).symm
  | cons line rest ih =>
    rw [List.foldl_cons, ih, slots_addLine, List.append_assoc]
    cases held : line.slot? with
    | none => rw [List.filterMap_cons_none held]; rfl
    | some slot => rw [List.filterMap_cons_some held]; rfl

theorem slots_foldl (lines : List Line) :
    (lines.foldl addLine s).slots.toList.map (·.code) = s.slots.toList.map (·.code) ++
      (lines.map (·.text)).filterMap codeInstruction? := by
  rw [slots_pass, List.map_append, List.map_filterMap, List.filterMap_map]
  refine congrArg (_ ++ List.filterMap · lines) (funext fun line => ?_)
  rw [Line.slot?, Option.map_map]
  exact Option.map_id'

/-! ### Surveys that differ in their instructions -/

/-- Surveys that have found the same but for what the instructions are, up to the origins of lines
and the texts of faults. -/
structure Akin (s t : Survey) : Prop where
  externals : t.externals = s.externals
  symbols : t.symbols = s.symbols
  faults : faulty t.diagnostics = faulty s.diagnostics
  count : t.slots.size = s.slots.size
  strings : t.strings.toList.map StringData.place = s.strings.toList.map StringData.place
  cursor : t.cursor = s.cursor

namespace Akin

variable (akin : Akin s t) (line other : Line)

include akin

theorem reject (fault : Fault) : Akin (s.reject line fault) (t.reject other fault) :=
  { akin with faults := by rw [faulty_reject, faulty_reject] }

theorem define (name : List Char) (symbol : Symbol) :
    Akin (s.define line name symbol) (t.define other name symbol) := by
  unfold Survey.define
  rw [akin.symbols]
  split
  · exact { akin with symbols := rfl }
  · exact akin.reject line other _

theorem addConstant (rest : List Char) :
    Akin (s.addConstant line rest) (t.addConstant other rest) := by
  have scope : t.scope = s.scope := by unfold scope; rw [akin.symbols, akin.externals]
  unfold Survey.addConstant
  rw [scope]
  split
  · split
    · exact akin.define line other _ _
    · exact akin.reject line other _
  · exact akin.reject line other _

theorem addString (rest : List Char) : Akin (s.addString line rest) (t.addString other rest) := by
  unfold Survey.addString
  rw [akin.cursor]
  dsimp only
  split
  · split
    · exact akin.reject line other _
    · split
      · exact akin.reject line other _
      · have defined := akin.define line other (Text.cutAtBlank (Text.trimStart rest)).1
          (.value (Int32.ofNat s.cursor))
        refine { defined with strings := ?_, cursor := congrArg (· + _) defined.cursor }
        simp only [Array.toList_push, List.map_append, defined.strings, List.map_cons,
          StringData.place, defined.cursor]
  · exact akin.reject line other _

theorem push (code code' : List Char) :
    Akin { s with slots := s.slots.push ⟨line, code⟩ }
      { t with slots := t.slots.push ⟨other, code'⟩ } :=
  { akin with count := by simp only [Array.size_push, akin.count] }

theorem addCode (code : List Char) : Akin (s.addCode line code) (t.addCode other code) := by
  unfold Survey.addCode
  split
  · exact akin
  · split
    · exact akin.addConstant line other _
    · split
      · exact akin.addString line other _
      · split
        · exact akin.reject line other _
        · exact akin.push line other code code

theorem labelled (label : (splitLabel? other.text).map Prod.fst =
    (splitLabel? line.text).map Prod.fst) : Akin (s.labelled line) (t.labelled other) := by
  unfold Survey.labelled
  rw [akin.count]
  cases own : splitLabel? line.text with
  | none =>
    rw [own] at label
    rw [Option.map_eq_none_iff.mp label]
    exact akin
  | some x =>
    rw [own] at label
    obtain ⟨y, split, same⟩ := Option.map_eq_some_iff.mp label
    rw [split]
    dsimp only
    rw [same]
    exact akin.define line other _ _

theorem addLine (alike : Alike line.text other.text) : Akin (s.addLine line) (t.addLine other) := by
  have labelled := akin.labelled line other alike.label
  rw [addLine_eq, addLine_eq]
  rcases alike.behind with same | ⟨one, two⟩
  · rw [same]
    exact labelled.addCode line other _
  · rw [addCode_instruction one, addCode_instruction two]
    exact labelled.push line other _ _

theorem foldl {lines others : List Line}
    (alike : List.Forall₂ Alike (lines.map (·.text)) (others.map (·.text))) :
    Akin (lines.foldl Survey.addLine s) (others.foldl Survey.addLine t) := by
  induction lines generalizing others s t with
  | nil =>
    cases List.map_eq_nil_iff.mp (List.forall₂_nil_left_iff.mp alike)
    exact akin
  | cons line rest ih =>
    cases others with
    | nil => cases alike
    | cons other later =>
      obtain ⟨first, alike⟩ := List.forall₂_cons.mp alike
      exact ih (akin.addLine line other first) alike

theorem prologue_eq : (prologue t.strings.toList).map (·.1) = (prologue s.strings.toList).map (·.1) := by
  rw [prologue_map_fst, prologue_map_fst, akin.strings]

theorem finalScope_eq : t.finalScope = s.finalScope := by
  have length := congrArg List.length akin.prologue_eq
  rw [List.length_map, List.length_map] at length
  unfold finalScope
  rw [akin.symbols, akin.externals, length]

end Akin

end Survey

end RobotArena.Assembly
