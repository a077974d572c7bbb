import RobotArena.Proofs.Assembly.Quotation
import RobotArena.Proofs.Memory.Blocks
import Mathlib.Data.List.Forall2

/-!
# Strings in the heap

The first pass gives each string the next free words of the heap and remembers its address under
its name. The main statement is that of a whole pass without faults.
-/

namespace RobotArena.Assembly

open Expansion

/-! ### The bytes of a string -/

/-- The bytes of a text with the final zero. -/
def terminated (text : List Char) : List UInt8 :=
  Text.encode text ++ [0]

/-- Bytes filled up with zeros to whole words. -/
def padded (bytes : List UInt8) : List UInt8 :=
  bytes ++ List.replicate (Survey.wholeWords bytes.length - bytes.length) 0

theorem length_padded (bytes : List UInt8) :
    (padded bytes).length = Survey.wholeWords bytes.length := by
  rw [padded, List.length_append, List.length_replicate]
  unfold Survey.wholeWords
  omega

/-- The name and the text of the string that a line of code defines. -/
def codeString? (code : List Char) : Option (List Char × List Char) :=
  (Text.dropHead? ".string".toList (behindLabel code)).bind fun rest =>
    (readOnlyQuoted? (Text.cutAtBlank (Text.trimStart rest)).2).map fun text =>
      ((Text.cutAtBlank (Text.trimStart rest)).1, text)

/-- The name and the text of the string that a line defines. -/
def lineString? (raw : List Char) : Option (List Char × List Char) :=
  (ownCode? raw).bind codeString?

/-- Where a string goes and all bytes that are stored there. -/
def StringData.block (data : StringData) : Nat × List UInt8 :=
  (data.address, padded data.bytes)

/-- What is stored for some strings. -/
def contents (strings : List StringData) : List (List UInt8) :=
  strings.map fun data => padded data.bytes

theorem holdsString_iff {lines : List Line} {raws : List (List Char)}
    (codes : lines.map (·.text) = raws.filterMap ownCode?) :
    (∃ raw ∈ raws, holdsString raw = true) ↔ ∃ line ∈ lines, isString line.text = true := by
  have inLines : (∃ line ∈ lines, isString line.text = true) ↔
      ∃ code ∈ lines.map (·.text), isString code = true := by simp
  rw [inLines, codes]
  constructor
  · rintro ⟨raw, member, string⟩
    unfold holdsString at string
    cases own : ownCode? raw with
    | none =>
      rw [own] at string
      cases string
    | some code =>
      rw [own] at string
      exact ⟨code, List.mem_filterMap.mpr ⟨raw, member, own⟩, string⟩
  · rintro ⟨code, member, string⟩
    obtain ⟨raw, inside, own⟩ := List.mem_filterMap.mp member
    exact ⟨raw, inside, by rw [holdsString, own]; exact string⟩

/-! ### What a line does to the heap -/

namespace Survey

variable (s : Survey) (line : Line)

/-- Surveys with the same strings in the heap. -/
structure SameHeap (s t : Survey) : Prop where
  strings : t.strings = s.strings
  cursor : t.cursor = s.cursor

theorem SameHeap.trans {s t u : Survey} (one : SameHeap s t) (two : SameHeap t u) : SameHeap s u :=
  ⟨two.strings.trans one.strings, two.cursor.trans one.cursor⟩

theorem sameHeap_define (name : List Char) (symbol : Symbol) :
    SameHeap s (s.define line name symbol) := by
  unfold define
  split <;> exact ⟨rfl, rfl⟩

theorem sameHeap_addConstant (rest : List Char) : SameHeap s (s.addConstant line rest) := by
  unfold addConstant
  split
  · split
    · exact s.sameHeap_define line _ _
    · exact ⟨rfl, rfl⟩
  · exact ⟨rfl, rfl⟩

/-- The survey with the label of a line. -/
def labelled : Survey :=
  match splitLabel? line.text with
  | some (name, _) => s.define line name (.label s.slots.size)
  | none => s

theorem addLine_eq : s.addLine line = (s.labelled line).addCode line (behindLabel line.text) := by
  unfold addLine labelled behindLabel
  cases splitLabel? line.text <;> rfl

theorem sameHeap_labelled : SameHeap s (s.labelled line) := by
  unfold labelled
  split
  · exact s.sameHeap_define line _ _
  · exact ⟨rfl, rfl⟩

theorem sameHeap_addCode {code : List Char} (other : Text.dropHead? ".string".toList code = none) :
    SameHeap s (s.addCode line code) := by
  unfold addCode
  split
  · exact ⟨rfl, rfl⟩
  · split
    · exact s.sameHeap_addConstant line _
    · rw [other]
      dsimp only
      split <;> exact ⟨rfl, rfl⟩

theorem sameHeap_addLine (other : isString line.text = false) : SameHeap s (s.addLine line) := by
  have none : Text.dropHead? ".string".toList (behindLabel line.text) = none :=
    Option.not_isSome_iff_eq_none.mp (Bool.eq_false_iff.mp other)
  rw [addLine_eq]
  exact (s.sameHeap_labelled line).trans (sameHeap_addCode _ line none)

/-! ### Strings with their names -/

/-- The strings stand one behind the other from the start of the heap on. -/
structure Packed : Prop where
  blocks : s.strings.toList.map StringData.block =
    layOut Layout.heapBase (contents s.strings.toList)
  cursor : s.cursor = Layout.heapBase + (contents s.strings.toList).flatten.length
  room : s.cursor ≤ Layout.stackBase

/-- A string is known under a name. -/
structure Known (name text : List Char) (data : StringData) : Prop where
  bytes : data.bytes = terminated text
  named : isName name = true
  known : s.symbols.lookup (String.ofList name) = some (.value (Int32.ofNat data.address))

variable {s line}

theorem Packed.of_sameHeap {t : Survey} (h : s.Packed) (same : SameHeap s t) : t.Packed := by
  refine ⟨?_, ?_, ?_⟩
  · rw [same.strings]; exact h.blocks
  · rw [same.strings, same.cursor]; exact h.cursor
  · rw [same.cursor]; exact h.room

theorem Known.of_extends {t : Survey} {name text : List Char} {data : StringData}
    (h : s.Known name text data) (goesOn : Extends s t) : t.Known name text data :=
  ⟨h.bytes, h.named, goesOn.symbols h.known⟩

theorem hold_eq {name : List Char} {bytes : List UInt8}
    (clean : faulty (s.hold line name bytes).diagnostics = false) :
    (s.hold line name bytes).strings = s.strings.push ⟨s.cursor, bytes, line.origin⟩ ∧
      (s.hold line name bytes).cursor = s.cursor + wholeWords bytes.length ∧
      isName name = true ∧ (s.hold line name bytes).symbols.lookup (String.ofList name) =
        some (.value (Int32.ofNat s.cursor)) := by
  unfold hold define at *
  cases defined : s.symbols.define name (.value (Int32.ofNat s.cursor)) with
  | error fault =>
    rw [defined] at clean
    exact absurd clean (by simp)
  | ok symbols =>
    obtain ⟨named, _, rfl⟩ := Symbols.define_eq_ok defined
    exact ⟨rfl, rfl, named, by simp⟩

theorem Packed.hold {name : List Char} {bytes : List UInt8} (h : s.Packed)
    (clean : faulty (s.hold line name bytes).diagnostics = false)
    (room : s.cursor + wholeWords bytes.length ≤ Layout.stackBase) :
    (s.hold line name bytes).Packed := by
  obtain ⟨strings, cursor, _, _⟩ := hold_eq clean
  have more : contents (s.hold line name bytes).strings.toList =
      contents s.strings.toList ++ [padded bytes] := by
    rw [strings, Array.toList_push, contents, List.map_append]
    rfl
  refine ⟨?_, ?_, ?_⟩
  · rw [more, layOut_concat, ← h.cursor, ← h.blocks, strings, Array.toList_push, List.map_append]
    rfl
  · rw [more, cursor, List.flatten_append, List.length_append, ← Nat.add_assoc, ← h.cursor]
    simp [length_padded]
  · rw [cursor]
    exact room

theorem addLine_definition {name text : List Char} {gap between : List Char} (blankGap : Blanks gap)
    (named : isName name = true) (blankBetween : Blanks between) (apart : between ≠ [])
    (defines : behindLabel line.text = definition gap name between text)
    (clean : faulty (s.addLine line).diagnostics = false) :
    s.addLine line = (s.labelled line).hold line name (terminated text) ∧
      s.cursor + wholeWords (terminated text).length ≤ Layout.stackBase := by
  rw [addLine_eq, defines, addCode_definition _ line blankGap named blankBetween apart] at clean ⊢
  split at clean
  · exact absurd clean (by simp)
  · rename_i room
    rw [if_neg room]
    rw [(s.sameHeap_labelled line).cursor] at room
    exact ⟨rfl, Nat.le_of_not_lt room⟩

/-! ### A whole pass -/

/-- What is known of the strings that a survey has found. -/
structure Holds (s : Survey) (strings : List (List Char × List Char)) : Prop where
  packed : s.Packed
  known : List.Forall₂ (fun x data => s.Known x.1 x.2 data) strings s.strings.toList

theorem Holds.other {strings : List (List Char × List Char)} (h : s.Holds strings)
    (other : isString line.text = false) : (s.addLine line).Holds strings := by
  have same := s.sameHeap_addLine line other
  refine ⟨h.packed.of_sameHeap same, ?_⟩
  rw [same.strings]
  exact h.known.imp fun _ _ known => known.of_extends (s.extends_addLine line)

theorem Holds.definition {strings : List (List Char × List Char)} {raw name text : List Char}
    (h : s.Holds strings) (declares : Declares raw name text)
    (own : ownCode? raw = some line.text)
    (clean : faulty (s.addLine line).diagnostics = false) :
    (s.addLine line).Holds (strings ++ [(name, text)]) := by
  obtain ⟨code, gap, between, own', blankGap, named, blankBetween, apart, defines⟩ := declares.code
  cases own.symm.trans own'
  have goesOn := s.extends_addLine line
  have same := s.sameHeap_labelled line
  obtain ⟨holds, room⟩ := addLine_definition blankGap named blankBetween apart defines clean
  rw [holds] at clean goesOn ⊢
  rw [← same.cursor] at room
  refine ⟨(h.packed.of_sameHeap same).hold clean room, ?_⟩
  obtain ⟨pushed, _, _, defined⟩ := hold_eq clean
  rw [pushed, Array.toList_push, same.strings]
  have new : ((s.labelled line).hold line name (terminated text)).Known name text
      ⟨(s.labelled line).cursor, terminated text, line.origin⟩ := ⟨rfl, named, defined⟩
  have last : List.Forall₂ (fun x data => ((s.labelled line).hold line name (terminated text)).Known
      x.1 x.2 data) [(name, text)] [⟨(s.labelled line).cursor, terminated text, line.origin⟩] :=
    .cons new .nil
  exact List.rel_append (h.known.imp fun _ _ known => known.of_extends goesOn) last

theorem clean_of_foldl {lines : List Line}
    (clean : faulty (lines.foldl addLine s).diagnostics = false) : faulty s.diagnostics = false := by
  cases early : faulty s.diagnostics with
  | false => rfl
  | true =>
    rw [(s.extends_foldl lines).faults early] at clean
    exact clean

/-- The first pass forgets no fault of the expansion. -/
theorem clean_of_ofExpansion {externals : List Signature} {e : Expansion}
    (clean : faulty (ofExpansion externals e).diagnostics = false) :
    faulty e.diagnostics = false := by
  unfold ofExpansion at clean
  rw [← Array.foldl_toList] at clean
  exact clean_of_foldl clean

theorem Holds.foldl {done strings : List (List Char × List Char)} {raws : List (List Char)}
    {lines : List Line} (h : s.Holds done)
    (declared : List.Forall₂ (fun raw x => Declares raw x.1 x.2) (raws.filter holdsString) strings)
    (codes : lines.map (·.text) = raws.filterMap ownCode?)
    (clean : faulty (lines.foldl addLine s).diagnostics = false) :
    (lines.foldl addLine s).Holds (done ++ strings) := by
  -- On the lines as they are written, since those without code of their own add no line.
  induction raws generalizing s done strings lines with
  | nil =>
    cases List.map_eq_nil_iff.mp codes
    cases declared
    rw [List.append_nil]
    exact h
  | cons raw rest ih =>
    cases own : ownCode? raw with
    | none =>
      have skipped : holdsString raw = false := by rw [holdsString, own]; rfl
      rw [List.filterMap_cons, own] at codes
      rw [List.filter_cons_of_neg (by simp [skipped])] at declared
      exact ih h declared codes clean
    | some code =>
      rw [List.filterMap_cons, own] at codes
      dsimp only at codes
      cases lines with
      | nil => cases codes
      | cons line later =>
        obtain ⟨rfl, others⟩ := List.cons.inj codes
        have defines : holdsString raw = isString line.text := by rw [holdsString, own]; rfl
        cases string : isString line.text with
        | false =>
          rw [List.filter_cons_of_neg (by simp [defines, string])] at declared
          have all := ih (h.other string) declared others clean
          exact all
        | true =>
          rw [List.filter_cons_of_pos (by rw [defines, string])] at declared
          cases declared with
          | @cons _ x _ more declares declared =>
            have now := h.definition declares own (clean_of_foldl clean)
            have all := ih now declared others clean
            rwa [List.append_assoc] at all

/-- The string of a line goes into the heap, unless the line has a fault. -/
theorem addString_eq {rest : List Char}
    (clean : faulty (s.addString line rest).diagnostics = false) :
    ∃ text, readOnlyQuoted? (Text.cutAtBlank (Text.trimStart rest)).2 = some text ∧
      s.addString line rest =
        s.hold line (Text.cutAtBlank (Text.trimStart rest)).1 (terminated text) ∧
      s.cursor + wholeWords (terminated text).length ≤ Layout.stackBase := by
  unfold addString at clean ⊢
  dsimp only at clean ⊢
  split at clean
  · rename_i text quoted
    split at clean
    · exact absurd clean (by simp)
    · split at clean
      · exact absurd clean (by simp)
      · rename_i unnamed full
        rw [if_neg unnamed, if_neg full]
        exact ⟨text, quoted, rfl, Nat.le_of_not_lt full⟩
  · exact absurd clean (by simp)

theorem addLine_string (string : isString line.text = true)
    (clean : faulty (s.addLine line).diagnostics = false) :
    ∃ name text, codeString? line.text = some (name, text) ∧
      s.addLine line = (s.labelled line).hold line name (terminated text) ∧
      s.cursor + wholeWords (terminated text).length ≤ Layout.stackBase := by
  obtain ⟨rest, starts⟩ := Option.isSome_iff_exists.mp string
  have code := Text.eq_append_of_dropHead? starts
  have filled : (behindLabel line.text).isEmpty = false := by rw [code]; rfl
  have other : Text.dropHead? ".equ".toList (behindLabel line.text) = none := by rw [code]; rfl
  have step : s.addLine line = (s.labelled line).addString line rest := by
    rw [addLine_eq]
    unfold addCode
    rw [filled, if_neg Bool.false_ne_true, other, starts]
  rw [step] at clean ⊢
  rw [← (s.sameHeap_labelled line).cursor]
  obtain ⟨text, quoted, holds, room⟩ := addString_eq clean
  refine ⟨_, text, ?_, holds, room⟩
  rw [codeString?, starts, Option.bind_some, quoted]
  rfl

/-- A string is the one that a line defines, and comes from there. -/
structure DefinedBy (line : Line) (data : StringData) : Prop where
  defines : ∃ name text, codeString? line.text = some (name, text) ∧ data.bytes = terminated text
  origin : data.origin = line.origin

/-- A pass without faults finds the strings that the lines define, in order. -/
theorem strings_pass {lines : List Line}
    (clean : faulty (lines.foldl addLine s).diagnostics = false) :
    ∃ found, (lines.foldl addLine s).strings.toList = s.strings.toList ++ found ∧
      List.Forall₂ DefinedBy (lines.filter fun line => isString line.text) found := by
  induction lines generalizing s with
  | nil => exact ⟨[], (List.append_nil _).symm, .nil⟩
  | cons line rest ih =>
    obtain ⟨found, strings, defined⟩ := ih clean
    rw [List.foldl_cons, strings]
    cases string : isString line.text with
    | false =>
      refine ⟨found, by rw [(s.sameHeap_addLine line string).strings], ?_⟩
      rwa [List.filter_cons_of_neg (by simp [string])]
    | true =>
      have sound : faulty (s.addLine line).diagnostics = false := clean_of_foldl clean
      obtain ⟨name, text, defines, holds, _⟩ := addLine_string string sound
      rw [holds] at sound ⊢
      refine ⟨⟨(s.labelled line).cursor, terminated text, line.origin⟩ :: found, ?_, ?_⟩
      · rw [(hold_eq sound).1, Array.toList_push, (s.sameHeap_labelled line).strings,
          List.append_assoc, List.singleton_append]
      · rw [List.filter_cons_of_pos (by simp [string])]
        exact .cons ⟨⟨name, text, defines, rfl⟩, rfl⟩ defined

/-- A pass without faults packs all strings, and there is none exactly if no line defines one. -/
theorem packed_addLine (h : s.Packed) (clean : faulty (s.addLine line).diagnostics = false) :
    (s.addLine line).Packed ∧ ((s.addLine line).strings.toList = [] ↔
      s.strings.toList = [] ∧ isString line.text = false) := by
  cases string : isString line.text with
  | false =>
    have same := s.sameHeap_addLine line string
    refine ⟨h.of_sameHeap same, ?_⟩
    rw [same.strings]
    simp
  | true =>
    obtain ⟨name, text, _, holds, room⟩ := addLine_string string clean
    have same := s.sameHeap_labelled line
    rw [holds] at clean ⊢
    rw [← same.cursor] at room
    refine ⟨(h.of_sameHeap same).hold clean room, ?_⟩
    rw [(hold_eq clean).1]
    simp

theorem packed_foldl (h : s.Packed) {lines : List Line}
    (clean : faulty (lines.foldl addLine s).diagnostics = false) :
    (lines.foldl addLine s).Packed ∧ ((lines.foldl addLine s).strings.toList = [] ↔
      s.strings.toList = [] ∧ ∀ line ∈ lines, isString line.text = false) := by
  induction lines generalizing s with
  | nil => exact ⟨h, by simp⟩
  | cons line rest ih =>
    obtain ⟨packed, empty⟩ := packed_addLine h (clean_of_foldl clean)
    obtain ⟨all, none⟩ := ih packed clean
    refine ⟨all, none.trans ?_⟩
    rw [empty, List.forall_mem_cons, and_assoc]

/-- What a pass over lines that define strings has found, if it has found no fault. -/
theorem holds_ofExpansion {externals : List Signature} {e : Expansion} {raws : List (List Char)}
    {strings : List (List Char × List Char)}
    (declared : List.Forall₂ (fun raw x => Declares raw x.1 x.2) (raws.filter holdsString) strings)
    (codes : e.lines.toList.map (·.text) = raws.filterMap ownCode?)
    (clean : faulty (ofExpansion externals e).diagnostics = false) :
    (ofExpansion externals e).Holds strings := by
  have start : Holds { files := e.files, externals, diagnostics := e.diagnostics } [] :=
    ⟨⟨rfl, rfl, Nat.zero_le _⟩, .nil⟩
  unfold ofExpansion at clean ⊢
  rw [← Array.foldl_toList] at clean ⊢
  exact start.foldl declared codes clean

end Survey

end RobotArena.Assembly
