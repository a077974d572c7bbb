import RobotArena.Assembly.Survey
import RobotArena.Proofs.Assembly.Flat
import RobotArena.Proofs.Assembly.Names
import Mathlib.Data.Option.Basic

/-!
# Lines that define strings

`literal` writes any text in quotes. The main statement is that a line with a label or none,
`.string`, a name, a literal and perhaps a comment is read as the definition of that text under
that name.
-/

namespace RobotArena.Assembly

open Expansion

/-! ### Literals -/

/-- How a character is written in quotes. -/
def spelling (c : Char) : List Char :=
  if c = '\n' then ['\\', 'n']
  else if c = '\t' then ['\\', 't']
  else if c = '\x00' then ['\\', '0']
  else if c = '\\' then ['\\', '\\']
  else if c = '"' then ['\\', '"']
  else [c]

/-- A text in quotes. -/
def literal (text : List Char) : List Char :=
  '"' :: (text.flatMap spelling ++ ['"'])

theorem spelling_cases (c : Char) :
    (∃ code, spelling c = ['\\', code] ∧ unescape? code = some c) ∨
      (spelling c = [c] ∧ c ≠ '\\' ∧ c ≠ '"') := by
  have escaped : ∀ {d code : Char}, c = d → unescape? code = some d →
      ∃ code', ['\\', code] = ['\\', code'] ∧ unescape? code' = some c :=
    fun same means => ⟨_, rfl, same ▸ means⟩
  unfold spelling
  split
  · exact .inl (escaped ‹_› rfl)
  split
  · exact .inl (escaped ‹_› rfl)
  split
  · exact .inl (escaped ‹_› rfl)
  split
  · exact .inl (escaped ‹_› rfl)
  split
  · exact .inl (escaped ‹_› rfl)
  · rename_i back quote
    exact .inr ⟨rfl, back, quote⟩

theorem readQuotedBody?_spelling (c : Char) (cs : List Char) :
    readQuotedBody? (spelling c ++ cs) = (readQuotedBody? cs).map fun x => (c :: x.1, x.2) := by
  rcases spelling_cases c with ⟨code, spelled, means⟩ | ⟨spelled, back, quote⟩
  · rw [spelled, List.cons_append, List.singleton_append, readQuotedBody?.eq_3, means]
    cases readQuotedBody? cs <;> rfl
  · have plain : (c != '\\') = true := by simpa using back
    have passes : (guard ((c != '\\') = true) : Option Unit) = some () := if_pos plain
    rw [spelled, List.singleton_append, readQuotedBody?.eq_4 c cs quote fun _ _ same _ => back same,
      passes]
    cases readQuotedBody? cs <;> rfl

theorem readQuoted?_literal (text rest : List Char) :
    readQuoted? (literal text ++ rest) = some (text, rest) := by
  show readQuotedBody? (text.flatMap spelling ++ ['"'] ++ rest) = _
  induction text with
  | nil => rfl
  | cons c text ih =>
    rw [List.flatMap_cons, List.append_assoc, List.append_assoc, readQuotedBody?_spelling,
      ← List.append_assoc, ih]
    rfl

/-- A comment can start behind a literal, but not inside. -/
theorem through_literal (text : List Char) :
    (literal text).foldlM Region.next? .code = some .code := by
  have body : (text.flatMap spelling).foldlM Region.next? .quoted = some .quoted := by
    induction text with
    | nil => rfl
    | cons c text ih =>
      have step : (spelling c).foldlM Region.next? .quoted = some .quoted := by
        rcases spelling_cases c with ⟨code, spelled, _⟩ | ⟨spelled, back, quote⟩
        · rw [spelled]; rfl
        · rw [spelled]; simp [Region.next?, back, quote]
      rw [List.flatMap_cons, List.foldlM_append, step]
      exact ih
  show (text.flatMap spelling ++ ['"']).foldlM Region.next? .quoted = some .code
  rw [List.foldlM_append, body]
  rfl

/-! ### The parts of a line -/

/-- Only blanks. -/
def Blanks (cs : List Char) : Prop :=
  ∀ c ∈ cs, Text.isBlank c = true

/-- Characters that neither quote nor start a comment. -/
def Plain (cs : List Char) : Prop :=
  ∀ c ∈ cs, c ≠ ';' ∧ c ≠ '"'

-- Named instances: a search may find the one that tries all characters there are.
instance : DecidablePred Blanks :=
  List.decidableBAll fun c => Text.isBlank c = true

instance : DecidablePred Plain :=
  List.decidableBAll fun c => c ≠ ';' ∧ c ≠ '"'

theorem noBlanks : Blanks [] := nofun

theorem Plain.through {cs : List Char} (h : Plain cs) :
    cs.foldlM Region.next? .code = some .code := by
  induction cs with
  | nil => rfl
  | cons c rest ih =>
    obtain ⟨semi, quote⟩ := h c List.mem_cons_self
    rw [List.foldlM_cons, Region.next?, if_neg semi, if_neg quote]
    exact ih fun d member => h d (List.mem_cons_of_mem _ member)

theorem Plain.append {cs ds : List Char} (one : Plain cs) (two : Plain ds) : Plain (cs ++ ds) :=
  fun c member => (List.mem_append.mp member).elim (one c) (two c)

theorem Blanks.plain {cs : List Char} (h : Blanks cs) : Plain cs := fun c member => by
  have blank := h c member
  constructor
  · rintro rfl; exact absurd blank (by decide)
  · rintro rfl; exact absurd blank (by decide)

theorem plain_of_isName {name : List Char} (named : isName name = true) : Plain name := fun c member =>
  have letter := letter_of_isName named c member
  ⟨letter.semicolon, letter.quote⟩

/-! ### Lines that define strings -/

/-- What may stand in front of a directive: blanks, or a label. -/
inductive Opening : List Char → Prop
  | blank {cs} (blanks : Blanks cs) : Opening cs
  | label {before name gap behind} (blankBefore : Blanks before) (named : isName name = true)
      (blankGap : Blanks gap) (blankBehind : Blanks behind) :
      Opening (before ++ (name ++ gap ++ ':' :: behind))

/-- What may stand behind a directive: blanks, or blanks and a comment. -/
inductive Closing : List Char → Prop
  | blank {cs} (blanks : Blanks cs) : Closing cs
  | comment {gap} (blanks : Blanks gap) (words : List Char) : Closing (gap ++ ';' :: words)

/-- The operands of a string's definition: its name and its text. -/
def operands (gap name between text : List Char) : List Char :=
  gap ++ (name ++ (between ++ literal text))

/-- The definition of a string. -/
def definition (gap name between text : List Char) : List Char :=
  ".string".toList ++ operands gap name between text

/-- A line that defines a string under a name. -/
inductive Declares : List Char → List Char → List Char → Prop
  | intro {front gap name between text back} (opening : Opening front) (blankGap : Blanks gap)
      (named : isName name = true) (blankBetween : Blanks between) (apart : between ≠ [])
      (closing : Closing back) :
      Declares (front ++ definition gap name between text ++ back) name text

/-- What a line of code holds behind its label. -/
def behindLabel (code : List Char) : List Char :=
  match splitLabel? code with
  | some (_, rest) => Text.trim rest
  | none => code

/-- Whether a line of code defines a string. -/
def isString (code : List Char) : Bool :=
  (Text.dropHead? ".string".toList (behindLabel code)).isSome

/-- Whether a line defines a string. -/
def holdsString (raw : List Char) : Bool :=
  (ownCode? raw).any isString

section Definition

variable {front gap name between text back : List Char}

theorem getLast?_literal (front text : List Char) : (front ++ literal text).getLast? = some '"' := by
  unfold literal
  rw [← List.cons_append, ← List.append_assoc, List.getLast?_concat]

theorem getLast?_definition (front gap name between text : List Char) :
    (front ++ definition gap name between text).getLast? = some '"' := by
  unfold definition operands
  simp only [← List.append_assoc]
  exact getLast?_literal _ text

theorem through_definition (blankGap : Blanks gap) (named : isName name = true)
    (blankBetween : Blanks between) :
    (definition gap name between text).foldlM Region.next? .code = some .code := by
  have word : Plain ".string".toList := by decide
  have start := ((word.append blankGap.plain).append (plain_of_isName named)).append blankBetween.plain
  unfold definition operands
  simp only [← List.append_assoc]
  rw [List.foldlM_append, start.through]
  exact through_literal text

theorem Opening.plain (h : Opening front) : Plain front := by
  cases h with
  | blank blanks => exact blanks.plain
  | @label before name gap behind blankBefore named blankGap blankBehind =>
    have colon : Plain [':'] := by decide
    have rest := colon.append blankBehind.plain
    exact blankBefore.plain.append (((plain_of_isName named).append blankGap.plain).append rest)

theorem dropComment_closing {code : List Char} (through : code.foldlM Region.next? .code = some .code)
    (h : Closing back) : ∃ blanks, Blanks blanks ∧ dropComment (code ++ back) = code ++ blanks := by
  unfold dropComment
  rw [beforeComment_append through]
  cases h with
  | blank blanks =>
    refine ⟨back, blanks, congrArg (code ++ ·) ?_⟩
    simpa [beforeComment_nil] using beforeComment_append blanks.plain.through []
  | @comment gap blanks words =>
    refine ⟨gap, blanks, congrArg (code ++ ·) ?_⟩
    rw [beforeComment_append blanks.plain.through, beforeComment_cons]
    simp [Region.next?]

theorem trimEnd_cons {c : Char} (sharp : Text.isBlank c = false) (cs : List Char) :
    Text.trimEnd (c :: cs) = c :: Text.trimEnd cs := by
  unfold Text.trimEnd
  rw [List.reverse_cons, List.dropWhile_append]
  split
  · rename_i empty
    rw [List.isEmpty_iff.mp empty]
    simp [sharp]
  · rw [List.reverse_append]
    rfl

theorem definition_eq : definition gap name between text =
    '.' :: (['s', 't', 'r', 'i', 'n', 'g'] ++ operands gap name between text) := by
  have word : ".string".toList = '.' :: ['s', 't', 'r', 'i', 'n', 'g'] := rfl
  unfold definition
  rw [word, List.cons_append]

theorem splitLabel?_definition : splitLabel? (definition gap name between text) = none := by
  unfold splitLabel?
  dsimp only
  rw [definition_eq, List.takeWhile_cons_of_pos (by decide), List.dropWhile_cons_of_pos (by decide),
    Text.trim, Text.trimStart, List.dropWhile_cons_of_neg (by decide), trimEnd_cons (by decide)]
  split <;> rfl

theorem request_name (named : isName name = true) (rest : List Char) :
    request (name ++ rest) = .code := by
  cases name with
  | nil => cases named
  | cons c cs =>
    have point := (letter_of_isName named c List.mem_cons_self).point
    simp [request, Text.dropHead?, Ne.symm point]

theorem splitLabel?_label (named : isName name = true) (blankGap : Blanks gap) (rest : List Char) :
    splitLabel? (name ++ gap ++ ':' :: rest) = some (name, rest) := by
  have noColon : ∀ c ∈ name ++ gap, (c != ':') = true := by
    intro c member
    rcases List.mem_append.mp member with inName | inGap
    · simpa using (letter_of_isName named c inName).colon
    · have blank := blankGap c inGap
      simp only [bne_iff_ne, ne_eq]
      rintro rfl
      exact absurd blank (by decide)
  have trimmed : Text.trim (name ++ gap) = name := by
    have sharp := sharp_of_isName named
    exact Text.trim_around noBlanks blankGap
      (fun c first => sharp c (List.mem_of_head? first))
      (fun c last => sharp c (List.mem_of_getLast? last))
  unfold splitLabel?
  rw [List.takeWhile_append_of_pos noColon, List.dropWhile_append_of_pos noColon,
    List.takeWhile_cons_of_neg (by decide), List.dropWhile_cons_of_neg (by decide),
    List.append_nil, trimmed]
  exact if_pos named

/-! ### Code behind an opening -/

/-- A piece of code without a label or outer blanks that asks for no file. -/
structure Bare (core : List Char) : Prop where
  filled : core ≠ []
  first : ∀ c, core.head? = some c → Text.isBlank c = false
  last : ∀ c, core.getLast? = some c → Text.isBlank c = false
  unlabelled : splitLabel? core = none
  asks : request core = .code

theorem bare_definition : Bare (definition gap name between text) where
  filled := by simp [definition_eq]
  first := by
    intro c first
    rw [definition_eq] at first
    cases first
    decide
  last := by
    intro c last
    have quote := getLast?_definition [] gap name between text
    rw [List.nil_append, last] at quote
    cases quote
    decide
  unlabelled := splitLabel?_definition
  asks := by simp [request, Text.dropHead?, definition_eq]

theorem Bare.trim {core : List Char} (bare : Bare core) (blanks : Blanks front) :
    Text.trim (front ++ core) = core := by
  simpa using Text.trim_around blanks noBlanks bare.first bare.last

theorem Bare.trim_labelled {core before label behind : List Char} (bare : Bare core)
    (blankBefore : Blanks before) (named : isName label = true) :
    Text.trim (before ++ (label ++ gap ++ ':' :: (behind ++ core))) =
      label ++ gap ++ ':' :: (behind ++ core) := by
  have first := sharp_head named (gap ++ ':' :: (behind ++ core))
  rw [← List.append_assoc] at first
  have sharp : ∀ c, (label ++ gap ++ ':' :: (behind ++ core)).getLast? = some c →
      Text.isBlank c = false := by
    intro c last
    rw [← List.cons_append, ← List.append_assoc, List.getLast?_append_of_ne_nil _ bare.filled] at last
    exact bare.last c last
  simpa using Text.trim_around blankBefore noBlanks first sharp

/-- The code behind an opening is what stands there, with the label of the opening or none. -/
theorem Opening.code (h : Opening front) : ∃ label : Option (List Char), ∀ core, Bare core →
    ∃ code, Text.trim (front ++ core) = code ∧ code ≠ [] ∧ request code = .code ∧
      behindLabel code = core ∧ (splitLabel? code).map Prod.fst = label := by
  cases h with
  | blank blanks =>
    refine ⟨none, fun core bare => ⟨core, bare.trim blanks, bare.filled, bare.asks, ?_, ?_⟩⟩
    · rw [behindLabel, bare.unlabelled]
    · rw [bare.unlabelled]
      rfl
  | @label before label labelGap behind blankBefore named blankGap blankBehind =>
    refine ⟨some label, fun core bare => ?_⟩
    rw [List.append_assoc, List.append_assoc (label ++ labelGap), List.cons_append]
    refine ⟨_, bare.trim_labelled blankBefore named, by simp, ?_, ?_, ?_⟩
    · rw [List.append_assoc]
      exact request_name named _
    · rw [behindLabel, splitLabel?_label named blankGap]
      exact bare.trim blankBehind
    · rw [splitLabel?_label named blankGap]
      rfl

/-- A line of an opening, code and a closing holds that code, with the label of the opening. -/
theorem Opening.line (h : Opening front) : ∃ label : Option (List Char), ∀ {core back}, Bare core →
    core.foldlM Region.next? .code = some .code → Closing back →
      ∃ code, ownCode? (front ++ core ++ back) = some code ∧ behindLabel code = core ∧
        (splitLabel? code).map Prod.fst = label := by
  obtain ⟨label, all⟩ := h.code
  refine ⟨label, fun {core back} bare through closing => ?_⟩
  obtain ⟨code, trimmed, filled, asks, behind, labelled⟩ := all core bare
  refine ⟨code, ?_, behind, labelled⟩
  have whole : (front ++ core).foldlM Region.next? .code = some .code := by
    rw [List.foldlM_append, h.plain.through]
    exact through
  obtain ⟨blanks, blank, kept⟩ := dropComment_closing whole closing
  unfold ownCode? codeText?
  dsimp only
  rw [kept, Text.trim_append blank, trimmed, if_neg (by simpa using filled)]
  simp [asks]

end Definition

theorem Declares.code {raw name text : List Char} (h : Declares raw name text) :
    ∃ code gap between, ownCode? raw = some code ∧ Blanks gap ∧ isName name = true ∧
      Blanks between ∧ between ≠ [] ∧ behindLabel code = definition gap name between text := by
  cases h with
  | @intro front gap name between text back opening blankGap named blankBetween apart closing =>
    obtain ⟨_, all⟩ := opening.line
    obtain ⟨code, own, defines, _⟩ := all bare_definition
      (through_definition blankGap named blankBetween) closing
    exact ⟨code, gap, between, own, blankGap, named, blankBetween, apart, defines⟩

/-! ### What a definition adds -/

theorem cutAtBlank_name {name between : List Char} (named : isName name = true)
    (blankBetween : Blanks between) (apart : between ≠ []) (rest : List Char) :
    Text.cutAtBlank (name ++ (between ++ rest)) = (name, between ++ rest) := by
  have sharp : ∀ c ∈ name, (!Text.isBlank c) = true := fun c member => by
    rw [sharp_of_isName named c member]; rfl
  cases between with
  | nil => exact absurd rfl apart
  | cons b more =>
    have blank : ¬ (!Text.isBlank b) = true := by
      rw [blankBetween b List.mem_cons_self]; decide
    unfold Text.cutAtBlank
    rw [List.takeWhile_append_of_pos sharp, List.dropWhile_append_of_pos sharp, List.cons_append,
      List.takeWhile_cons, if_neg blank, List.dropWhile_cons, if_neg blank, List.append_nil]

theorem readOnlyQuoted?_literal {between : List Char} (blanks : Blanks between)
    (text : List Char) : readOnlyQuoted? (between ++ literal text) = some text := by
  have trimmed : Text.trim (between ++ literal text) = literal text := by
    refine (congrArg Text.trim (List.append_nil _)).symm.trans (Text.trim_around blanks noBlanks ?_ ?_)
    · intro c first
      cases first
      decide
    · intro c last
      rw [← List.nil_append (literal text), getLast?_literal] at last
      cases last
      decide
  unfold readOnlyQuoted?
  rw [trimmed, ← List.append_nil (literal text), readQuoted?_literal]
  rfl

namespace Survey

/-- The survey with a string in the next place of the heap. -/
def hold (s : Survey) (line : Line) (name : List Char) (bytes : List UInt8) : Survey :=
  let defined := s.define line name (.value (Int32.ofNat s.cursor))
  { defined with
    strings := defined.strings.push ⟨defined.cursor, bytes, line.origin⟩
    cursor := defined.cursor + wholeWords bytes.length }

theorem addCode_definition {gap name between text : List Char} (s : Survey) (line : Line)
    (blankGap : Blanks gap) (named : isName name = true) (blankBetween : Blanks between)
    (apart : between ≠ []) :
    s.addCode line (definition gap name between text) =
      if Layout.stackBase < s.cursor + wholeWords (Text.encode text ++ [0]).length then
        s.reject line .heapExhausted
      else s.hold line name (Text.encode text ++ [0]) := by
  have filled : (definition gap name between text).isEmpty = false := by rw [definition_eq]; rfl
  have noConstant : Text.dropHead? ".equ".toList (definition gap name between text) = none := by
    simp [Text.dropHead?, definition_eq]
  have string : Text.dropHead? ".string".toList (definition gap name between text) =
      some (operands gap name between text) := by
    rw [definition_eq]
    simp [Text.dropHead?]
  have trimmed : Text.trimStart (operands gap name between text) =
      name ++ (between ++ literal text) := by
    unfold operands
    rw [Text.trimStart_append blankGap]
    unfold Text.trimStart
    exact Text.dropWhile_blank (sharp_head named _)
  have known : name.isEmpty = false := by
    cases name with
    | nil => cases named
    | cons c rest => rfl
  unfold addCode addString
  rw [filled, if_neg Bool.false_ne_true, noConstant, string]
  dsimp only
  rw [trimmed, cutAtBlank_name named blankBetween apart]
  dsimp only
  rw [readOnlyQuoted?_literal blankBetween, known]
  rfl

end Survey

end RobotArena.Assembly
