import RobotArena.Proofs.Assembly.Visits

/-!
# Where lines are read

`Traces` follows the lines of a text and of the files that it includes, each with the path of its
file, as the include has it, and its number there. The main statement is that the lines that an
expansion takes in stand for these, as long as the files can be told apart by their numbers.
-/

namespace RobotArena.Assembly

open Expansion

/-- A line as it is written, with the path of its file and its number there, counted from zero. -/
structure Placed where
  raw : List Char
  path : String
  number : Nat

/-- The lines of a file. -/
def placedLines (path : String) (source : List UInt8) : List Placed :=
  (fileLines source).zipIdx.map fun x => ⟨x.1, path, x.2⟩

/-- Whether a line holds code of its own. -/
def Placed.holdsCode (p : Placed) : Bool :=
  (ownCode? p.raw).isSome

/-- The lines that some lines come to, with each file in the place of its first include. Every line
keeps its place in its own file. -/
abbrev Traces (texts : Texts) : List String → List Placed → List Placed → List String → Prop :=
  Splices texts Placed.raw placedLines

/-- The lines that a root's text comes to with all includes written out, each with its place. -/
def Traced (texts : Texts) (root : String) (text : List UInt8) (flat : List Placed) : Prop :=
  ∃ named, Traces texts [root] (placedLines root text) flat named

theorem raw_placedLines (path : String) (source : List UInt8) :
    (placedLines path source).map Placed.raw = fileLines source := by
  unfold placedLines
  rw [List.map_map]
  exact List.zipIdx_map_fst 0 _

theorem path_placedLines {path : String} {source : List UInt8} {p : Placed}
    (member : p ∈ placedLines path source) : p.path = path := by
  obtain ⟨x, _, rfl⟩ := List.mem_map.mp member
  rfl

/-- Without their places these are the lines that the includes written out come to. -/
theorem Traces.flattens {texts : Texts} {seen named : List String} {lines flat : List Placed}
    (h : Traces texts seen lines flat named) :
    Flattens texts seen (lines.map Placed.raw) (flat.map Placed.raw) named := by
  induction h with
  | nil => exact .nil
  | keep own _ ih => exact .keep own ih
  | again asks old _ ih => exact .again asks old ih
  | first asks new found _ _ insideIh restIh =>
    rw [raw_placedLines] at insideIh
    rw [List.map_append]
    exact .first asks new found insideIh restIh

section Traced

variable {texts : Texts} {root : String} {text : List UInt8} {flat other : List Placed}

theorem Traced.unique (one : Traced texts root text flat) (two : Traced texts root text other) :
    other = flat := by
  obtain ⟨_, one⟩ := one
  obtain ⟨_, two⟩ := two
  exact (one.unique two).1.symm

theorem Traced.flattened (h : Traced texts root text flat) :
    Flattened texts root text (flat.map Placed.raw) := by
  obtain ⟨named, traces⟩ := h
  have flattens := traces.flattens
  rw [raw_placedLines] at flattens
  exact ⟨named, flattens⟩

end Traced

/-! ### The files of an expansion -/

theorem getElem?_of_prefix {α : Type} {front whole : List α} (grown : front <+: whole) {k : Nat}
    {x : α} (found : front[k]? = some x) : whole[k]? = some x := by
  obtain ⟨more, rfl⟩ := grown
  rw [List.getElem?_append_left (List.getElem?_eq_some_iff.mp found).1]
  exact found

namespace Expands

variable {texts : Texts} {opened : List String} {e e' : Expansion} {s s' : Unit} {lines : List Line}

theorem files_prefix (h : Expands (lookIn texts) opened e s lines e' s') :
    e.files.toList <+: e'.files.toList := by
  induction h with
  | done => exact List.prefix_rfl
  | code _ _ ih | malformed _ _ ih | inside _ _ _ ih | again _ _ _ _ ih | absent _ _ _ _ _ ih =>
    exact ih
  | first _ _ _ _ _ _ withinIh restIh =>
    rw [Array.toList_push] at withinIh
    exact (List.prefix_append _ _).trans (withinIh.trans restIh)

theorem faulty_of (h : Expands (lookIn texts) opened e s lines e' s')
    (bad : faulty e.diagnostics = true) : faulty e'.diagnostics = true := by
  induction h with
  | done => exact bad
  | code _ _ ih | again _ _ _ _ ih | absent _ _ _ _ _ ih => exact ih bad
  | malformed _ _ ih | inside _ _ _ ih => exact ih (by simp [Expansion.reject])
  | first _ _ _ _ _ _ withinIh restIh => exact restIh (withinIh bad)

end Expands

/-! ### Lines and their places -/

/-- A line that has been taken in stands for a line of a file. The line's file is one of some
files, by its number. -/
structure StandsFor (files : List String) (line : Line) (p : Placed) : Prop where
  code : ownCode? p.raw = some line.text
  path : files[line.file.toNat]? = some p.path
  number : line.number = p.number

theorem StandsFor.mono {files files' : List String} (grown : files <+: files') {line : Line}
    {p : Placed} (h : StandsFor files line p) : StandsFor files' line p :=
  { h with path := getElem?_of_prefix grown h.path }

/-- An expansion that has taken in the code of what some lines come to. -/
structure Follows (texts : Texts) (e e' : Expansion) (placed : List Placed) : Prop where
  grown : e.files.toList <+: e'.files.toList
  takes : ∃ flat more, Traces texts e.named.toList placed flat e'.named.toList ∧
    e'.lines.toList = e.lines.toList ++ more ∧
    List.Forall₂ (StandsFor e'.files.toList) more (flat.filter Placed.holdsCode)

namespace Follows

variable {texts : Texts} {e e' e'' : Expansion} {placed more : List Placed}

theorem append (one : Follows texts e e' placed) (two : Follows texts e' e'' more) :
    Follows texts e e'' (placed ++ more) := by
  obtain ⟨flat, lines, traces, taken, stand⟩ := one.takes
  obtain ⟨flat', lines', traces', taken', stand'⟩ := two.takes
  refine ⟨one.grown.trans two.grown, flat ++ flat', lines ++ lines', traces.append traces', ?_, ?_⟩
  · rw [taken', taken, List.append_assoc]
  · rw [List.filter_append]
    exact List.rel_append (stand.imp fun _ _ => .mono two.grown) stand'

/-- Lines without code are passed over. -/
theorem blank (silent : ∀ p ∈ placed, codeText? p.raw = none) : Follows texts e e placed := by
  refine ⟨List.prefix_rfl, placed, [], .of_own fun p member => ?_, (List.append_nil _).symm, ?_⟩
  · rw [includedPath?_eq, silent p member]
    rfl
  · rw [List.filter_eq_nil_iff.mpr fun p member => by
      simp [Placed.holdsCode, ownCode?, silent p member]]
    exact .nil

variable {line : Line} {p : Placed}

theorem code (read : codeText? p.raw = some line.text) (own : request line.text = .code)
    (path : e.files.toList[line.file.toNat]? = some p.path) (number : line.number = p.number) :
    Follows texts e { e with lines := e.lines.push line } [p] := by
  have holds : ownCode? p.raw = some line.text := by simp [ownCode?, read, own]
  have quiet : includedPath? p.raw = none := by simp [includedPath?_eq, read, requestedPath?, own]
  refine ⟨List.prefix_rfl, [p], [line], .keep quiet .nil, Array.toList_push, ?_⟩
  rw [List.filter_cons_of_pos (by rw [Placed.holdsCode, holds]; rfl)]
  exact .cons ⟨holds, path, number⟩ .nil

theorem again {path : String} (asks : includedPath? p.raw = some path)
    (old : path ∈ e.named.toList) : Follows texts e e [p] :=
  ⟨List.prefix_rfl, [], [], .again asks old .nil, (List.append_nil _).symm, .nil⟩

theorem file {path : String} {source : List UInt8} (asks : includedPath? p.raw = some path)
    (new : path ∉ e.named.toList) (found : texts.lookup path = some source)
    (within : Follows texts
      { e with named := e.named.push path, files := e.files.push path } e'
      (placedLines path source)) : Follows texts e e' [p] := by
  obtain ⟨flat, more, traces, taken, stand⟩ := within.takes
  rw [Array.toList_push] at traces
  refine ⟨(List.prefix_append _ [path]).trans ?_, flat ++ [], more,
    .first asks new found traces .nil, taken, ?_⟩
  · rw [← Array.toList_push]
    exact within.grown
  · rw [List.append_nil]
    exact stand

end Follows

/-- The lines of a file that hold code, found among all its lines. -/
theorem codeLine?_eq_some {file : UInt16} {number : Nat} {raw : List Char} {line : Line}
    (read : codeLine? file number raw = some line) :
    codeText? raw = some line.text ∧ line.file = file ∧ line.number = number := by
  refine ⟨by rw [← text_codeLine? file number, read]; rfl, ?_⟩
  unfold codeLine? at read
  dsimp only at read
  split at read
  · cases read
  · cases read
    exact ⟨rfl, rfl⟩

theorem codeText?_eq_none {file : UInt16} {number : Nat} {raw : List Char}
    (read : codeLine? file number raw = none) : codeText? raw = none := by
  rw [← text_codeLine? file number, read]
  rfl

/-- The code of some lines of a file. -/
def codeOf (file : UInt16) (placed : List Placed) : List Line :=
  placed.filterMap fun p => codeLine? file p.number p.raw

theorem codeOf_placedLines (path : String) (file : UInt16) (source : List UInt8) :
    codeOf file (placedLines path source) = codeLines file source := by
  unfold codeOf placedLines
  rw [List.filterMap_map]
  rfl

/-- Where the first line with code stands among some lines, and what follows it. -/
theorem Follows.of_cons {texts : Texts} {e between e' : Expansion} {file : UInt16}
    {placed : List Placed} {line : Line} {lines : List Line}
    (codes : codeOf file placed = line :: lines)
    (step : ∀ p ∈ placed, codeText? p.raw = some line.text → line.file = file →
      line.number = p.number → Follows texts e between [p])
    (later : ∀ rest ⊆ placed, codeOf file rest = lines → Follows texts between e' rest) :
    Follows texts e e' placed := by
  obtain ⟨blanks, p, rest, rfl, silent, read, codes⟩ := List.filterMap_eq_cons_iff.mp codes
  obtain ⟨read, same, number⟩ := codeLine?_eq_some read
  have front : Follows texts e e blanks :=
    .blank fun q member => codeText?_eq_none (silent q member)
  have first := step p (by simp) read same number
  exact front.append (first.append (later rest (fun q member => by simp [member]) codes))

theorem includedPath?_of_request {raw code : List Char} {path : String}
    (read : codeText? raw = some code) (asks : request code = .file path) :
    includedPath? raw = some path := by
  rw [includedPath?_eq, read]
  exact requestedPath?_eq_some.mpr asks

/-- The expansion of some lines of a file, without a fault and with all files at hand and told apart
by their numbers, follows these lines. -/
theorem Expands.follows {texts : Texts} {opened : List String} {e e' : Expansion} {s s' : Unit}
    {lines : List Line} (h : Expands (lookIn texts) opened e s lines e' s')
    (complete : e'.missing = false) (clean : faulty e'.diagnostics = false)
    (few : e'.files.size < 65536) {file : UInt16} {path : String} {placed : List Placed}
    (codes : codeOf file placed = lines) (here : ∀ p ∈ placed, p.path = path)
    (known : e.files.toList[file.toNat]? = some path) : Follows texts e e' placed := by
  induction h generalizing file path placed with
  | done =>
    exact .blank fun p member => codeText?_eq_none (List.filterMap_eq_nil_iff.mp codes p member)
  | code own _ ih =>
    refine .of_cons codes (fun p member read same number => .code read own ?_ number)
      fun rest part codes => ?_
    · rw [same, here p member]
      exact known
    · exact ih complete clean few codes (fun p member => here p (part member)) known
  | malformed _ rest =>
    rw [rest.faulty_of (by simp [Expansion.reject])] at clean
    cases clean
  | inside _ _ rest =>
    rw [rest.faulty_of (by simp [Expansion.reject])] at clean
    cases clean
  | again asks _ old _ ih =>
    refine .of_cons codes (fun p member read same number => .again ?_ old)
      fun rest part codes => ?_
    · exact includedPath?_of_request read asks
    · exact ih complete clean few codes (fun p member => here p (part member)) known
  | absent _ _ _ _ rest =>
    rw [rest.missing_of rfl] at complete
    cases complete
  | @first opened e s line lines e' s' inner source asked between left asks outside new answer within
      rest withinIh restIh =>
    have whole : between.missing = false := by
      by_contra absent
      rw [rest.missing_of (by simpa using absent)] at complete
      cases complete
    have sound : faulty between.diagnostics = false := by
      by_contra bad
      rw [rest.faulty_of (by simpa using bad)] at clean
      cases clean
    have size : between.files.size < 65536 :=
      Nat.lt_of_le_of_lt rest.files_prefix.length_le few
    have opens : e.files.size + 1 ≤ between.files.size := by
      have grown := within.files_prefix.length_le
      rwa [Array.length_toList, Array.length_toList, Array.size_push] at grown
    have number : (UInt16.ofNat e.files.size).toNat = e.files.size := by
      rw [UInt16.toNat_ofNat']
      exact Nat.mod_eq_of_lt (by omega)
    have deeper : Follows texts { e with named := e.named.push inner, files := e.files.push inner }
        between (placedLines inner source) := by
      refine withinIh whole sound size (codeOf_placedLines inner _ source)
        (fun p => path_placedLines) ?_
      rw [number, Array.toList_push, ← Array.length_toList, List.getElem?_concat_length]
    refine .of_cons codes
      (fun p member read same number => .file ?_ new (congrArg Prod.fst answer) deeper)
      fun rest' part codes => ?_
    · exact includedPath?_of_request read asks
    · refine restIh complete clean few codes (fun p member => here p (part member)) ?_
      have grown : e.files.toList <+: (e.files.push inner).toList := by
        rw [Array.toList_push]
        exact List.prefix_append _ _
      exact getElem?_of_prefix (grown.trans within.files_prefix) known

/-- The lines that an expansion takes in stand for those that the text comes to, if it has no fault,
all files are at hand and there are fewer than 65536 of them. -/
theorem expand_traced {texts : Texts} {root : String} {text : List UInt8}
    (complete : (expand texts root text).missing = false)
    (clean : faulty (expand texts root text).diagnostics = false)
    (few : (expand texts root text).files.size < 65536) :
    ∃ flat, Traced texts root text flat ∧
      List.Forall₂ (StandsFor (expand texts root text).files.toList)
        (expand texts root text).lines.toList (flat.filter Placed.holdsCode) := by
  have follows := (expand_expandsIn texts root text).follows complete clean few
    (codeOf_placedLines root 0 text) (fun p => path_placedLines) rfl
  obtain ⟨flat, more, traces, taken, stand⟩ := follows.takes
  refine ⟨flat, ⟨_, traces⟩, ?_⟩
  have all : (expand texts root text).lines.toList = more := taken.trans (List.nil_append _)
  exact all ▸ stand

end RobotArena.Assembly
