import RobotArena.Proofs.Assembly.Assembled
import RobotArena.Proofs.Assembly.Comments
import RobotArena.Proofs.Text.Utf8
import Mathlib.Data.List.Perm.Subperm
import Mathlib.Logic.Relation

/-!
# Includes written out

`Flattens` says which lines a text comes to when each file is put in the place of its first include
and later includes of it are dropped. The main statement is that an expansion takes in exactly the
code of these lines, if no file includes itself and all files are at hand.
-/

namespace RobotArena.Assembly

open Expansion Relation

/-! ### Lines as they are written -/

/-- The lines of a text. -/
def fileLines (text : List UInt8) : List (List Char) :=
  Text.lines (Text.decodeLossy text)

/-- The text that consists of some lines. -/
def flatText (raws : List (List Char)) : List UInt8 :=
  Text.encode (Text.written raws)

/-- What the code on a line asks for. -/
def lineRequest? (raw : List Char) : Option Request :=
  (codeText? raw).map request

/-- The file that a line includes. -/
def includedPath? (raw : List Char) : Option String :=
  match lineRequest? raw with
  | some (.file path) => some path
  | _ => none

/-- Whether a line is an include that names no file. -/
def isMalformed (raw : List Char) : Bool :=
  lineRequest? raw == some .malformed

/-- The code that a line holds itself. -/
def ownCode? (raw : List Char) : Option (List Char) :=
  (codeText? raw).filter (request · = .code)

/-- The lines `flat` that `raws` come to, with each file in the place of its first include. `seen`
are the paths named before, `named` those named in the end. -/
inductive Flattens (texts : Texts) :
    List String → List (List Char) → List (List Char) → List String → Prop
  | nil {seen} : Flattens texts seen [] [] seen
  | keep {seen raw raws flat named} (own : includedPath? raw = none)
      (rest : Flattens texts seen raws flat named) :
      Flattens texts seen (raw :: raws) (raw :: flat) named
  | again {seen raw raws flat named path} (asks : includedPath? raw = some path)
      (old : path ∈ seen) (rest : Flattens texts seen raws flat named) :
      Flattens texts seen (raw :: raws) flat named
  | first {seen raw raws inner between flat named path source}
      (asks : includedPath? raw = some path) (new : path ∉ seen)
      (found : texts.lookup path = some source)
      (inside : Flattens texts (seen ++ [path]) (fileLines source) inner between)
      (rest : Flattens texts between raws flat named) :
      Flattens texts seen (raw :: raws) (inner ++ flat) named

/-- The lines that a root's text comes to with all includes written out. -/
def Flattened (texts : Texts) (root : String) (text : List UInt8) (flat : List (List Char)) :
    Prop :=
  ∃ named, Flattens texts [root] (fileLines text) flat named

/-- `Flattens` for lines that are known by more than their text: `text` is what is written on one, and
`linesOf` are the lines of a file. -/
inductive Splices {α : Type} (texts : Texts) (text : α → List Char)
    (linesOf : String → List UInt8 → List α) :
    List String → List α → List α → List String → Prop
  | nil {seen} : Splices texts text linesOf seen [] [] seen
  | keep {seen line lines flat named} (own : includedPath? (text line) = none)
      (rest : Splices texts text linesOf seen lines flat named) :
      Splices texts text linesOf seen (line :: lines) (line :: flat) named
  | again {seen line lines flat named path} (asks : includedPath? (text line) = some path)
      (old : path ∈ seen) (rest : Splices texts text linesOf seen lines flat named) :
      Splices texts text linesOf seen (line :: lines) flat named
  | first {seen line lines inner between flat named path source}
      (asks : includedPath? (text line) = some path) (new : path ∉ seen)
      (found : texts.lookup path = some source)
      (inside : Splices texts text linesOf (seen ++ [path]) (linesOf path source) inner between)
      (rest : Splices texts text linesOf between lines flat named) :
      Splices texts text linesOf seen (line :: lines) (inner ++ flat) named

namespace Splices

variable {α : Type} {texts : Texts} {text : α → List Char} {linesOf : String → List UInt8 → List α}
  {seen between named : List String} {lines more flat later : List α}

theorem append (one : Splices texts text linesOf seen lines flat between)
    (two : Splices texts text linesOf between more later named) :
    Splices texts text linesOf seen (lines ++ more) (flat ++ later) named := by
  induction one with
  | nil => exact two
  | keep own _ ih => exact .keep own (ih two)
  | again asks old _ ih => exact .again asks old (ih two)
  | first asks new found inside _ _ ih =>
    rw [List.append_assoc]
    exact .first asks new found inside (ih two)

theorem of_own (own : ∀ line ∈ lines, includedPath? (text line) = none) :
    Splices texts text linesOf seen lines lines seen := by
  induction lines with
  | nil => exact .nil
  | cons line lines ih =>
    obtain ⟨here, later⟩ := List.forall_mem_cons.mp own
    exact .keep here (ih later)

theorem unique (one : Splices texts text linesOf seen lines flat named)
    (two : Splices texts text linesOf seen lines later between) : flat = later ∧ named = between := by
  induction one generalizing later between with
  | nil =>
    cases two
    exact ⟨rfl, rfl⟩
  | keep own _ ih =>
    cases two with
    | keep _ rest =>
      obtain ⟨rfl, rfl⟩ := ih rest
      exact ⟨rfl, rfl⟩
    | again asks => simp [own] at asks
    | first asks => simp [own] at asks
  | again asks old _ ih =>
    cases two with
    | keep own => simp [own] at asks
    | again _ _ rest => exact ih rest
    | first asks' new =>
      cases asks.symm.trans asks'
      exact absurd old new
  | first asks new found _ _ insideIh restIh =>
    cases two with
    | keep own => simp [own] at asks
    | again asks' old =>
      cases asks.symm.trans asks'
      exact absurd old new
    | first asks' _ found' inside' rest' =>
      cases asks.symm.trans asks'
      cases found.symm.trans found'
      obtain ⟨rfl, rfl⟩ := insideIh inside'
      obtain ⟨rfl, rfl⟩ := restIh rest'
      exact ⟨rfl, rfl⟩

end Splices

namespace Flattens

variable {texts : Texts} {seen between named : List String} {raws more flat later : List (List Char)}

theorem iff_splices : Flattens texts seen raws flat named ↔
    Splices texts id (fun _ => fileLines) seen raws flat named := by
  constructor
  · intro h
    induction h with
    | nil => exact .nil
    | keep own _ ih => exact .keep own ih
    | again asks old _ ih => exact .again asks old ih
    | first asks new found _ _ insideIh restIh => exact .first asks new found insideIh restIh
  · intro h
    induction h with
    | nil => exact .nil
    | keep own _ ih => exact .keep own ih
    | again asks old _ ih => exact .again asks old ih
    | first asks new found _ _ insideIh restIh => exact .first asks new found insideIh restIh

theorem append (one : Flattens texts seen raws flat between)
    (two : Flattens texts between more later named) :
    Flattens texts seen (raws ++ more) (flat ++ later) named :=
  iff_splices.mpr ((iff_splices.mp one).append (iff_splices.mp two))

theorem unique (one : Flattens texts seen raws flat named)
    (two : Flattens texts seen raws later between) : flat = later ∧ named = between :=
  (iff_splices.mp one).unique (iff_splices.mp two)

theorem own (h : Flattens texts seen raws flat named) : ∀ raw ∈ flat, includedPath? raw = none := by
  induction h with
  | nil => exact nofun
  | keep own _ ih =>
    intro raw member
    rcases List.mem_cons.mp member with rfl | later
    · exact own
    · exact ih raw later
  | again _ _ _ ih => exact ih
  | first _ _ _ _ _ insideIh restIh =>
    intro raw member
    rcases List.mem_append.mp member with inside | later
    · exact insideIh raw inside
    · exact restIh raw later

theorem of_own (own : ∀ raw ∈ raws, includedPath? raw = none) :
    Flattens texts seen raws raws seen :=
  iff_splices.mpr (.of_own own)

/-- Lines of files hold no line feed, and neither do those that they come to. -/
theorem whole (h : Flattens texts seen raws flat named) (clean : ∀ raw ∈ raws, '\n' ∉ raw) :
    ∀ raw ∈ flat, '\n' ∉ raw := by
  induction h with
  | nil => exact nofun
  | keep _ _ ih =>
    intro raw member
    rcases List.mem_cons.mp member with rfl | later
    · exact clean raw List.mem_cons_self
    · exact ih (fun line inside => clean line (List.mem_cons_of_mem _ inside)) raw later
  | again _ _ _ ih => exact ih fun line inside => clean line (List.mem_cons_of_mem _ inside)
  | first _ _ _ _ _ insideIh restIh =>
    intro raw member
    rcases List.mem_append.mp member with inside | later
    · exact insideIh (fun line => Text.newline_of_mem_lines) raw inside
    · exact restIh (fun line inside => clean line (List.mem_cons_of_mem _ inside)) raw later

end Flattens

theorem Flattened.unique {texts : Texts} {root : String} {text : List UInt8}
    {flat other : List (List Char)} (one : Flattened texts root text flat)
    (two : Flattened texts root text other) : flat = other := by
  obtain ⟨_, one⟩ := one
  obtain ⟨_, two⟩ := two
  exact (one.unique two).1

/-! ### Which file includes which -/

section Files

variable (texts : Texts) (root : String) (text : List UInt8)

/-- The text of a file: the root's own, or one at hand. -/
def sourceOf? (path : String) : Option (List UInt8) :=
  if path = root then some text else texts.lookup path

/-- One file has a line that includes another. -/
def Includes (outer inner : String) : Prop :=
  ∃ source, sourceOf? texts root text outer = some source ∧
    ∃ raw ∈ fileLines source, includedPath? raw = some inner

/-- No file that the root includes, directly or through others, includes itself in this way. -/
def NoCycle : Prop :=
  ∀ path, ReflTransGen (Includes texts root text) root path →
    ¬ TransGen (Includes texts root text) path path

/-- Every file that the root includes, directly or through others, is at hand. -/
def AtHand : Prop :=
  ∀ path, ReflTransGen (Includes texts root text) root path →
    (sourceOf? texts root text path).isSome

/-- The files that are being read, each included by the next one, up to the root. They are all
different. -/
inductive Around : List String → Prop
  | root : Around [root]
  | file {inner outer rest} (outside : Around (outer :: rest))
      (includes : Includes texts root text outer inner) (new : inner ∉ outer :: rest)
      (found : (sourceOf? texts root text inner).isSome) : Around (inner :: outer :: rest)

end Files

section Around

variable {texts : Texts} {root : String} {text : List UInt8} {around : List String} {path : String}

theorem Around.reached (h : Around texts root text (path :: around)) :
    ∀ file ∈ path :: around, ReflTransGen (Includes texts root text) root file ∧
      ReflTransGen (Includes texts root text) file path := by
  generalize files : path :: around = all at h
  induction h generalizing path around with
  | root =>
    cases files
    intro file member
    cases List.mem_singleton.mp member
    exact ⟨.refl, .refl⟩
  | @file inner outer rest outside includes _ _ ih =>
    cases files
    have known := ih rfl
    intro file member
    rcases List.mem_cons.mp member with rfl | old
    · exact ⟨(known outer List.mem_cons_self).1.tail includes, .refl⟩
    · exact ⟨(known file old).1, (known file old).2.tail includes⟩

theorem Around.root_mem (h : Around texts root text around) : root ∈ around := by
  induction h with
  | root => exact List.mem_singleton_self _
  | file _ _ _ _ ih => exact List.mem_cons_of_mem _ ih

theorem Around.nodup (h : Around texts root text around) : around.Nodup := by
  induction h with
  | root => simp
  | file _ _ new _ ih => exact List.nodup_cons.mpr ⟨new, ih⟩

theorem Around.cycle {outer : String} (h : Around texts root text (outer :: around))
    (includes : Includes texts root text outer path) (old : path ∈ outer :: around) :
    ¬ NoCycle texts root text := fun noCycle => by
  obtain ⟨start, back⟩ := h.reached path old
  exact noCycle path start (TransGen.tail' back includes)

theorem mem_of_sourceOf? {source : List UInt8}
    (found : sourceOf? texts root text path = some source) :
    (path, source) ∈ (root, text) :: texts := by
  unfold sourceOf? at found
  split at found
  · rename_i same
    cases found
    exact same ▸ List.mem_cons_self
  · obtain ⟨before, after, split, _⟩ := List.lookup_eq_some_iff.mp found
    simp [split]

/-- Files inside each other are no more than there are texts. -/
theorem Around.length_le (h : Around texts root text around) :
    around.length ≤ texts.length + 1 := by
  have known : around ⊆ root :: texts.map Prod.fst := by
    induction h with
    | root => simp
    | @file inner outer rest _ _ _ found ih =>
      obtain ⟨source, found⟩ := Option.isSome_iff_exists.mp found
      have here : inner ∈ root :: texts.map Prod.fst :=
        List.mem_map_of_mem (f := Prod.fst) (mem_of_sourceOf? found)
      exact List.cons_subset.mpr ⟨here, ih⟩
  have few := (List.subperm_of_subset h.nodup known).length_le
  simpa using few

end Around

section Checks

variable {texts : Texts} {root : String} {text : List UInt8}

theorem NoCycle.of_rank (rank : String → Nat)
    (falls : ∀ file ∈ (root, text) :: texts, ∀ raw ∈ fileLines file.2,
      (includedPath? raw).all (rank · < rank file.1) = true) : NoCycle texts root text := by
  have step : ∀ {outer inner}, Includes texts root text outer inner → rank inner < rank outer := by
    rintro outer inner ⟨source, found, raw, member, asks⟩
    simpa [asks] using falls _ (mem_of_sourceOf? found) raw member
  have steps : ∀ {outer inner}, TransGen (Includes texts root text) outer inner →
      rank inner < rank outer := by
    intro outer inner chain
    induction chain with
    | single one => exact step one
    | tail _ last ih => exact Nat.lt_trans (step last) ih
  exact fun path _ around => absurd (steps around) (Nat.lt_irrefl _)

theorem AtHand.of_files
    (found : ∀ file ∈ (root, text) :: texts, ∀ raw ∈ fileLines file.2,
      (includedPath? raw).all (fun path => (sourceOf? texts root text path).isSome) = true) :
    AtHand texts root text := by
  intro path reached
  cases reached with
  | refl => rw [sourceOf?, if_pos rfl]; rfl
  | tail _ last =>
    obtain ⟨source, here, raw, member, asks⟩ := last
    simpa [asks] using found _ (mem_of_sourceOf? here) raw member

end Checks

/-! ### What an expansion takes in -/

namespace Expansion

/-- An expansion that has taken in the code of some lines. -/
structure Gains (e e' : Expansion) (flat : List (List Char)) : Prop where
  missing : e'.missing = e.missing
  lines : e'.lines.toList.map (·.text) = e.lines.toList.map (·.text) ++ flat.filterMap ownCode?
  faults : faulty e'.diagnostics = (faulty e.diagnostics || flat.any isMalformed)

theorem Gains.refl (e : Expansion) : Gains e e [] :=
  ⟨rfl, by simp, by simp⟩

theorem Gains.append {e e' e'' : Expansion} {flat later : List (List Char)} (one : Gains e e' flat)
    (two : Gains e' e'' later) : Gains e e'' (flat ++ later) where
  missing := two.missing.trans one.missing
  lines := by rw [two.lines, one.lines, List.filterMap_append, List.append_assoc]
  faults := by rw [two.faults, one.faults, List.any_append, Bool.or_assoc]

/-- An expansion that has taken in what some lines come to. -/
def Takes (texts : Texts) (e e' : Expansion) (raws : List (List Char)) : Prop :=
  ∃ flat, Flattens texts e.named.toList raws flat e'.named.toList ∧ Gains e e' flat

theorem Takes.append {texts : Texts} {e e' e'' : Expansion} {raws more : List (List Char)}
    (one : Takes texts e e' raws) (two : Takes texts e' e'' more) :
    Takes texts e e'' (raws ++ more) := by
  obtain ⟨flat, flattens, gains⟩ := one
  obtain ⟨later, flattens', gains'⟩ := two
  exact ⟨flat ++ later, flattens.append flattens', gains.append gains'⟩

section Reading

variable (texts : Texts) (root : String) (text : List UInt8)

/-- An expansion that has taken in what some lines come to, unless a file is missing or includes
itself. Neither is forgotten. -/
structure Reads (e e' : Expansion) (raws : List (List Char)) : Prop where
  missing : e.missing = true → e'.missing = true
  faults : faulty e.diagnostics = true → faulty e'.diagnostics = true
  takes : Takes texts e e' raws ∨ (e'.missing = true ∧ ¬ AtHand texts root text) ∨
    (faulty e'.diagnostics = true ∧ ¬ NoCycle texts root text)

end Reading

section Reading

variable {texts : Texts} {root : String} {text : List UInt8} {outer : String} {around : List String}
  {e e' e'' : Expansion} {raws more : List (List Char)}
  {take : Expansion → List String → UInt16 → List UInt8 → Expansion}

theorem Takes.reads (h : Takes texts e e' raws) : Reads texts root text e e' raws := by
  have whole := h
  obtain ⟨flat, _, gains⟩ := h
  exact ⟨gains.missing.trans, fun old => by rw [gains.faults, old]; rfl, .inl whole⟩

theorem Reads.append (one : Reads texts root text e e' raws)
    (two : Reads texts root text e' e'' more) : Reads texts root text e e'' (raws ++ more) := by
  refine ⟨two.missing ∘ one.missing, two.faults ∘ one.faults, ?_⟩
  rcases one.takes with first | ⟨absent, files⟩ | ⟨bad, files⟩
  · rcases two.takes with second | trouble
    · exact .inl (first.append second)
    · exact .inr trouble
  · exact .inr (.inl ⟨two.missing absent, files⟩)
  · exact .inr (.inr ⟨two.faults bad, files⟩)

section Taking

variable (here : Around texts root text (outer :: around))
  (taken : ∀ e path file source, Around texts root text (path :: outer :: around) →
    sourceOf? texts root text path = some source →
      Reads texts root text e (take e (path :: outer :: around) file source) (fileLines source))

include here taken

theorem reads_addFile (e : Expansion) (line : Line) {raw : List Char} {path : String}
    (asks : includedPath? raw = some path) (includes : Includes texts root text outer path) :
    Reads texts root text e (e.addFile texts take (outer :: around) line path) [raw] := by
  unfold addFile
  -- The file is one of those being read, was named before, is not at hand, or is taken in here.
  split
  · rename_i old
    have bad : faulty (e.reject line (.includeCycle path)).diagnostics = true := by
      simp [reject]
    exact ⟨id, fun _ => bad, .inr (.inr ⟨bad, here.cycle includes (by simpa using old)⟩)⟩
  · rename_i new
    have new : path ∉ outer :: around := by simpa using new
    have other : path ≠ root := fun same => new (same ▸ here.root_mem)
    split
    · rename_i old
      have old : path ∈ e.named.toList := by simpa using old
      exact Takes.reads ⟨[], .again asks old .nil, .refl e⟩
    · rename_i fresh
      have fresh : path ∉ e.named.toList := by simpa using fresh
      have looked : sourceOf? texts root text path = texts.lookup path := if_neg other
      dsimp only
      split
      · rename_i absent
        refine ⟨fun _ => rfl, id, .inr (.inl ⟨rfl, fun atHand => ?_⟩)⟩
        have reached := (here.reached outer List.mem_cons_self).1.tail includes
        simpa [looked, absent] using atHand path reached
      · rename_i source found
        have inside := here.file includes new (by rw [looked, found]; rfl)
        have inner := taken { e with named := e.named.push path, files := e.files.push path } path
          (UInt16.ofNat e.files.size) source inside (looked.trans found)
        refine ⟨inner.missing, inner.faults, inner.takes.imp_left ?_⟩
        rintro ⟨flat, flattens, gains⟩
        rw [Array.toList_push] at flattens
        refine ⟨flat, ?_, ⟨gains.missing, gains.lines, gains.faults⟩⟩
        simpa using Flattens.first asks fresh found flattens .nil

theorem reads_addLine (e : Expansion) (line : Line) {raw : List Char}
    (code : codeText? raw = some line.text)
    (includes : ∀ path, includedPath? raw = some path → Includes texts root text outer path) :
    Reads texts root text e (e.addLine texts take (outer :: around) line) [raw] := by
  have asked : lineRequest? raw = some (request line.text) := by rw [lineRequest?, code]; rfl
  unfold addLine
  cases wish : request line.text with
  | code =>
    have own : ownCode? raw = some line.text := by simp [ownCode?, code, wish]
    refine Takes.reads ⟨[raw], .keep (by simp [includedPath?, asked, wish]) .nil, rfl, ?_, ?_⟩
    · simp [own]
    · simp [isMalformed, asked, wish]
  | malformed =>
    refine Takes.reads ⟨[raw], .keep (by simp [includedPath?, asked, wish]) .nil, rfl, ?_, ?_⟩
    · simp [ownCode?, code, wish, reject]
    · simp [isMalformed, asked, wish, reject]
  | file path =>
    have asks : includedPath? raw = some path := by rw [includedPath?, asked, wish]
    exact reads_addFile here taken e line asks (includes path asks)

theorem reads_lines (file : UInt16) (numbered : List (List Char × Nat)) (e : Expansion)
    (includes : ∀ x ∈ numbered, ∀ path, includedPath? x.1 = some path →
      Includes texts root text outer path) :
    Reads texts root text e ((numbered.filterMap fun x => codeLine? file x.2 x.1).foldl
      (addLine texts take (outer :: around)) e) (numbered.map Prod.fst) := by
  induction numbered generalizing e with
  | nil => exact Takes.reads ⟨[], .nil, .refl e⟩
  | cons x rest ih =>
    have later := fun e => ih e fun y member => includes y (List.mem_cons_of_mem _ member)
    have shown := text_codeLine? file x.2 x.1
    rw [List.filterMap_cons, List.map_cons, ← List.singleton_append]
    cases read : codeLine? file x.2 x.1 with
    | none =>
      rw [read] at shown
      have silent : codeText? x.1 = none := shown.symm
      have skipped : Takes texts e e [x.1] := by
        refine ⟨[x.1], .keep (by simp [includedPath?, lineRequest?, silent]) .nil, rfl, ?_, ?_⟩
        · simp [ownCode?, silent]
        · simp [isMalformed, lineRequest?, silent]
      exact skipped.reads.append (later e)
    | some line =>
      rw [read] at shown
      have step := reads_addLine here taken e line shown.symm (includes x List.mem_cons_self)
      exact step.append (later _)

end Taking

theorem reads_addText (depth : Nat) (e : Expansion) {path : String} {around : List String}
    (file : UInt16) {source : List UInt8} (here : Around texts root text (path :: around))
    (found : sourceOf? texts root text path = some source)
    (enough : depth + around.length = texts.length + 1) :
    Reads texts root text e (addText texts depth e (path :: around) file source)
      (fileLines source) := by
  induction depth generalizing e path around file source with
  | zero =>
    -- All depth used up would be more files inside each other than there are texts.
    have few := here.length_le
    rw [List.length_cons] at few
    omega
  | succ depth ih =>
    have includes : ∀ x ∈ (fileLines source).zipIdx, ∀ inner, includedPath? x.1 = some inner →
        Includes texts root text path inner := by
      intro x member inner asks
      exact ⟨source, found, x.1, List.fst_mem_of_mem_zipIdx member, asks⟩
    have all := reads_lines here
      (fun e inner file source here found => ih e file here found
        (by rw [List.length_cons]; omega)) file _ e includes
    rw [List.zipIdx_map_fst] at all
    exact all

end Reading

end Expansion

section Expand

variable {texts : Texts} {root : String} {text : List UInt8}

theorem expand_reads : Reads texts root text (.start root) (expand texts root text)
    (fileLines text) :=
  reads_addText _ (.start root) 0 .root (if_pos rfl) (by simp)

theorem expand_takes (noCycle : NoCycle texts root text) (atHand : AtHand texts root text) :
    ∃ flat, Flattens texts [root] (fileLines text) flat (expand texts root text).named.toList ∧
      Gains (.start root) (expand texts root text) flat := by
  rcases (expand_reads : Reads texts root text _ _ _).takes with takes | ⟨_, absent⟩ | ⟨_, cycle⟩
  · exact takes
  · exact absurd atHand absent
  · exact absurd noCycle cycle

theorem accepted_takes (complete : (expand texts root text).missing = false)
    (clean : faulty (expand texts root text).diagnostics = false) :
    ∃ flat, Flattened texts root text flat ∧ Gains (.start root) (expand texts root text) flat := by
  rcases (expand_reads : Reads texts root text _ _ _).takes with takes | ⟨absent, _⟩ | ⟨bad, _⟩
  · obtain ⟨flat, flattens, gains⟩ := takes
    exact ⟨flat, ⟨_, flattens⟩, gains⟩
  · rw [complete] at absent
    cases absent
  · rw [clean] at bad
    cases bad

end Expand

end RobotArena.Assembly
