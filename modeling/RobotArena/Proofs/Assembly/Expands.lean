import RobotArena.Proofs.Assembly.Flat
import RobotArena.Proofs.Assembly.Inclusion
import RobotArena.Proofs.Assembly.Unfolding

/-!
# What an expansion goes through

`Expands` says how the lines of a file are taken in, one after another and file within file, with no
bound on the depth. Files are looked up on the way, and the answer may depend on earlier lookups. The
main statements are that every expansion comes to an end in this way and in no other, and that it
names the files in the order in which they come up when every include is followed.
-/

namespace RobotArena.Assembly

open Expansion Relation

/-! ### Includes of a file -/

/-- The file that a line of code includes. -/
def requestedPath? (code : List Char) : Option String :=
  match request code with
  | .file path => some path
  | _ => none

/-- The files that a text includes, in order. -/
def includedPaths (source : List UInt8) : List String :=
  (fileLines source).filterMap includedPath?

/-- The files that some lines of code include, in order. -/
def requestedPaths (lines : List Line) : List String :=
  lines.filterMap fun line => requestedPath? line.text

theorem requestedPath?_eq_some {code : List Char} {path : String} :
    requestedPath? code = some path ↔ request code = .file path := by
  unfold requestedPath?
  split
  · rename_i other asks
    rw [asks]
    simp
  · rename_i none
    exact ⟨nofun, fun asks => absurd asks (none path)⟩

theorem includedPath?_eq (raw : List Char) :
    includedPath? raw = (codeText? raw).bind requestedPath? := by
  unfold includedPath? lineRequest? requestedPath?
  cases codeText? raw with
  | none => rfl
  | some code =>
    simp only [Option.map_some, Option.bind_some]
    cases request code <;> rfl

theorem texts_codeLines (file : UInt16) (source : List UInt8) :
    (codeLines file source).map (·.text) = (fileLines source).filterMap codeText? := by
  have numbered : (fileLines source).filterMap codeText? =
      (fileLines source).zipIdx.filterMap fun x => codeText? x.1 := by
    rw [← Function.comp_def, ← List.filterMap_map, List.zipIdx_map_fst]
  rw [numbered]
  unfold codeLines
  rw [List.map_filterMap]
  exact congrArg (List.filterMap · _) (funext fun x => text_codeLine? file x.2 x.1)

theorem requestedPaths_cons {line : Line} {path : String} (asks : request line.text = .file path)
    (lines : List Line) : requestedPaths (line :: lines) = path :: requestedPaths lines :=
  List.filterMap_cons_some (f := fun line : Line => requestedPath? line.text)
    (requestedPath?_eq_some.mpr asks)

theorem requestedPaths_skip {line : Line} (asks : ∀ path, request line.text ≠ .file path)
    (lines : List Line) : requestedPaths (line :: lines) = requestedPaths lines := by
  refine List.filterMap_cons_none (f := fun line : Line => requestedPath? line.text) ?_
  refine Option.eq_none_iff_forall_ne_some.mpr fun path found => ?_
  exact asks path (requestedPath?_eq_some.mp found)

theorem requestedPaths_codeLines (file : UInt16) (source : List UInt8) :
    requestedPaths (codeLines file source) = includedPaths source := by
  have texts := congrArg (List.filterMap requestedPath?) (texts_codeLines file source)
  rw [List.filterMap_map, List.filterMap_filterMap] at texts
  unfold includedPaths
  rw [funext includedPath?_eq]
  exact texts

section Included

variable (texts : Texts) (root : String) (text : List UInt8)

/-- The files that a file includes, in order. -/
def included (path : String) : List String :=
  ((sourceOf? texts root text path).map includedPaths).getD []

variable {texts root text}

theorem includes_iff {outer inner : String} :
    Includes texts root text outer inner ↔ inner ∈ included texts root text outer := by
  unfold Includes included
  cases sourceOf? texts root text outer with
  | none => simp
  | some source => simp [includedPaths]

/-- Other files than the root are looked up, and the root is open all the time. -/
theorem sourceOf?_outside {around : List String} {path : String} (rooted : root ∈ around)
    (outside : path ∉ around) : sourceOf? texts root text path = texts.lookup path :=
  if_neg fun same : path = root => outside (same ▸ rooted)

theorem included_eq {path : String} {source : List UInt8}
    (found : sourceOf? texts root text path = some source) :
    included texts root text path = includedPaths source := by
  rw [included, found]
  rfl

theorem included_absent {path : String} (absent : sourceOf? texts root text path = none) :
    included texts root text path = [] := by
  rw [included, absent]
  rfl

theorem includes_of_codeLines {outer inner : String} {source : List UInt8} {file : UInt16}
    {line : Line} (found : sourceOf? texts root text outer = some source)
    (member : line ∈ codeLines file source) (asks : request line.text = .file inner) :
    Includes texts root text outer inner := by
  rw [includes_iff, included_eq found, ← requestedPaths_codeLines file]
  exact List.mem_filterMap.mpr ⟨line, member, requestedPath?_eq_some.mpr asks⟩

theorem exists_unfolding (opened paths : List String) :
    ∃ up, Unfolds (included texts root text) opened paths up := by
  have finite : ∀ path, included texts root text path ≠ [] → path ∈ root :: texts.map Prod.fst := by
    intro path leads
    cases found : sourceOf? texts root text path with
    | none => exact absurd (included_absent found) leads
    | some source =>
      have here := List.mem_map_of_mem (f := Prod.fst) (mem_of_sourceOf? found)
      simpa using here
  exact Unfolds.exists_up finite opened paths

end Included

/-! ### Taking in lines -/

/-- Looks a path up. The answer may depend on what was looked up before. -/
abbrev Lookup (σ : Type) := String → σ → Option (List UInt8) × σ

/-- Looks a path up among texts that are at hand from the start. -/
def lookIn (texts : Texts) : Lookup Unit := fun path s => (texts.lookup path, s)

/-- What an expansion comes to when the lines of a file are taken in one after another, with the
files `around` open, the innermost first. -/
inductive Expands {σ : Type} (look : Lookup σ) :
    List String → Expansion → σ → List Line → Expansion → σ → Prop
  | done {around e s} : Expands look around e s [] e s
  | code {around e s line lines e' s'} (own : request line.text = .code)
      (rest : Expands look around { e with lines := e.lines.push line } s lines e' s') :
      Expands look around e s (line :: lines) e' s'
  | malformed {around e s line lines e' s'} (asks : request line.text = .malformed)
      (rest : Expands look around (e.reject line .includeForm) s lines e' s') :
      Expands look around e s (line :: lines) e' s'
  | inside {around e s line lines e' s' path} (asks : request line.text = .file path)
      (entered : path ∈ around)
      (rest : Expands look around (e.reject line (.includeCycle path)) s lines e' s') :
      Expands look around e s (line :: lines) e' s'
  | again {around e s line lines e' s' path} (asks : request line.text = .file path)
      (outside : path ∉ around) (old : path ∈ e.named.toList)
      (rest : Expands look around e s lines e' s') :
      Expands look around e s (line :: lines) e' s'
  | absent {around e s line lines e' s' path asked} (asks : request line.text = .file path)
      (outside : path ∉ around) (new : path ∉ e.named.toList) (answer : look path s = (none, asked))
      (rest : Expands look around { e with named := e.named.push path, missing := true } asked lines
        e' s') :
      Expands look around e s (line :: lines) e' s'
  | first {around e s line lines e' s' path source asked between left}
      (asks : request line.text = .file path) (outside : path ∉ around)
      (new : path ∉ e.named.toList) (answer : look path s = (some source, asked))
      (within : Expands look (path :: around)
        { e with named := e.named.push path, files := e.files.push path } asked
        (codeLines (UInt16.ofNat e.files.size) source) between left)
      (rest : Expands look around between left lines e' s') :
      Expands look around e s (line :: lines) e' s'

namespace Expands

variable {σ : Type} {look : Lookup σ} {around : List String} {e e' e'' : Expansion} {s s' s'' : σ}
  {lines : List Line}

theorem unique (one : Expands look around e s lines e' s')
    (two : Expands look around e s lines e'' s'') : e'' = e' ∧ s'' = s' := by
  induction one generalizing e'' s'' with
  | done =>
    cases two
    exact ⟨rfl, rfl⟩
  | code own _ ih =>
    cases two with
    | code _ rest => exact ih rest
    | malformed asks => cases own.symm.trans asks
    | inside asks => cases own.symm.trans asks
    | again asks => cases own.symm.trans asks
    | absent asks => cases own.symm.trans asks
    | first asks => cases own.symm.trans asks
  | malformed asks _ ih =>
    cases two with
    | code own => cases asks.symm.trans own
    | malformed _ rest => exact ih rest
    | inside asks' => cases asks.symm.trans asks'
    | again asks' => cases asks.symm.trans asks'
    | absent asks' => cases asks.symm.trans asks'
    | first asks' => cases asks.symm.trans asks'
  | inside asks entered _ ih =>
    cases two with
    | code own => cases asks.symm.trans own
    | malformed asks' => cases asks.symm.trans asks'
    | inside asks' _ rest =>
      cases asks.symm.trans asks'
      exact ih rest
    | again asks' outside | absent asks' outside | first asks' outside =>
      cases asks.symm.trans asks'
      exact absurd entered outside
  | again asks outside old _ ih =>
    cases two with
    | code own => cases asks.symm.trans own
    | malformed asks' => cases asks.symm.trans asks'
    | inside asks' entered =>
      cases asks.symm.trans asks'
      exact absurd entered outside
    | again _ _ _ rest => exact ih rest
    | absent asks' _ new | first asks' _ new =>
      cases asks.symm.trans asks'
      exact absurd old new
  | absent asks outside new answer _ ih =>
    cases two with
    | code own => cases asks.symm.trans own
    | malformed asks' => cases asks.symm.trans asks'
    | inside asks' entered =>
      cases asks.symm.trans asks'
      exact absurd entered outside
    | again asks' _ old =>
      cases asks.symm.trans asks'
      exact absurd old new
    | absent asks' _ _ answer' rest =>
      cases asks.symm.trans asks'
      cases answer.symm.trans answer'
      exact ih rest
    | first asks' _ _ answer' =>
      cases asks.symm.trans asks'
      cases answer.symm.trans answer'
  | first asks outside new answer _ _ withinIh restIh =>
    cases two with
    | code own => cases asks.symm.trans own
    | malformed asks' => cases asks.symm.trans asks'
    | inside asks' entered =>
      cases asks.symm.trans asks'
      exact absurd entered outside
    | again asks' _ old =>
      cases asks.symm.trans asks'
      exact absurd old new
    | absent asks' _ _ answer' =>
      cases asks.symm.trans asks'
      cases answer.symm.trans answer'
    | first asks' _ _ answer' within rest =>
      cases asks.symm.trans asks'
      cases answer.symm.trans answer'
      obtain ⟨rfl, rfl⟩ := withinIh within
      exact restIh rest

theorem named_subset (h : Expands look around e s lines e' s') :
    e.named.toList ⊆ e'.named.toList := by
  induction h with
  | done => exact List.Subset.refl _
  | code _ _ ih | malformed _ _ ih | inside _ _ _ ih | again _ _ _ _ ih => exact ih
  | absent _ _ _ _ _ ih =>
    rw [Array.toList_push] at ih
    exact List.Subset.trans (List.subset_append_left _ _) ih
  | first _ _ _ _ _ _ withinIh restIh =>
    rw [Array.toList_push] at withinIh
    exact List.Subset.trans (List.Subset.trans (List.subset_append_left _ _) withinIh) restIh

theorem named_of_missing {texts : Texts} {s s' : Unit}
    (h : Expands (lookIn texts) around e s lines e' s') (missing : e'.missing = true) :
    e.missing = true ∨
      ∃ path ∈ e'.named.toList, path ∉ e.named.toList ∧ texts.lookup path = none := by
  induction h with
  | done => exact .inl missing
  | code _ _ ih | malformed _ _ ih | inside _ _ _ ih | again _ _ _ _ ih => exact ih missing
  | @absent around e s line lines e' s' path asked _ _ new answer rest _ =>
    exact .inr ⟨path, rest.named_subset (by simp), new, congrArg Prod.fst answer⟩
  | @first around e s line lines e' s' path source asked between left _ _ _ _ within rest withinIh
      restIh =>
    rcases restIh missing with before | ⟨other, member, new, absent⟩
    · rcases withinIh before with before | ⟨other, member, new, absent⟩
      · exact .inl before
      · refine .inr ⟨other, rest.named_subset member, fun old => new ?_, absent⟩
        simp [old]
    · exact .inr ⟨other, member, fun old => new (within.named_subset (by simp [old])), absent⟩

end Expands

/-! ### Every expansion comes to an end -/

section Answers

variable {σ : Type} {look : Lookup σ} {state : List String → σ} {texts : Texts} {root : String}
  {text : List UInt8}

section Taking

variable {outer : String} {around : List String}
  {take : Expansion → List String → UInt16 → List UInt8 → Expansion}
  (answers : ∀ named path, look path (state named) = (texts.lookup path, state (named ++ [path])))
  (here : Around texts root text (outer :: around))
  (taken : ∀ e path file source, Around texts root text (path :: outer :: around) →
    sourceOf? texts root text path = some source →
      Expands look (path :: outer :: around) e (state e.named.toList) (codeLines file source)
        (take e (path :: outer :: around) file source)
        (state (take e (path :: outer :: around) file source).named.toList))

include answers here taken

theorem expands_lines (lines : List Line) (e : Expansion)
    (includes : ∀ line ∈ lines, ∀ path, request line.text = .file path →
      Includes texts root text outer path) :
    Expands look (outer :: around) e (state e.named.toList) lines
      (lines.foldl (addLine texts take (outer :: around)) e)
      (state (lines.foldl (addLine texts take (outer :: around)) e).named.toList) := by
  induction lines generalizing e with
  | nil => exact .done
  | cons line lines ih =>
    have later := fun e => ih e fun other member => includes other (List.mem_cons_of_mem _ member)
    have rest := later (e.addLine texts take (outer :: around) line)
    rw [List.foldl_cons]
    unfold addLine at rest ⊢
    cases asks : request line.text with
    | code =>
      rw [asks] at rest
      exact .code asks rest
    | malformed =>
      rw [asks] at rest
      exact .malformed asks rest
    | file path =>
      rw [asks] at rest
      dsimp only at rest ⊢
      unfold addFile at rest ⊢
      by_cases entered : path ∈ outer :: around
      · rw [if_pos (by simpa using entered)] at rest ⊢
        exact .inside asks entered rest
      rw [if_neg (by simpa using entered)] at rest ⊢
      by_cases old : path ∈ e.named.toList
      · rw [if_pos (by simpa using old)] at rest ⊢
        exact .again asks entered old rest
      rw [if_neg (by simpa using old)] at rest ⊢
      have looked : sourceOf? texts root text path = texts.lookup path :=
        sourceOf?_outside here.root_mem entered
      have answer := answers e.named.toList path
      rw [← Array.toList_push] at answer
      cases found : texts.lookup path with
      | none =>
        rw [found] at rest answer
        exact .absent asks entered old answer rest
      | some source =>
        rw [found] at rest answer
        have inside := here.file (includes line List.mem_cons_self path asks) entered
          (by rw [looked, found]; rfl)
        exact .first asks entered old answer
          (taken { e with named := e.named.push path, files := e.files.push path } path
            (UInt16.ofNat e.files.size) source inside (looked.trans found)) rest

end Taking

variable (answers : ∀ named path,
  look path (state named) = (texts.lookup path, state (named ++ [path])))

include answers

theorem expands_addText (depth : Nat) (e : Expansion) {path : String} {around : List String}
    (file : UInt16) {source : List UInt8} (here : Around texts root text (path :: around))
    (found : sourceOf? texts root text path = some source)
    (enough : texts.length + 1 ≤ depth + around.length) :
    Expands look (path :: around) e (state e.named.toList) (codeLines file source)
      (addText texts depth e (path :: around) file source)
      (state (addText texts depth e (path :: around) file source).named.toList) := by
  induction depth generalizing e path around file source with
  | zero =>
    -- All depth used up would be more files inside each other than there are texts.
    have few := here.length_le
    rw [List.length_cons] at few
    omega
  | succ depth ih =>
    refine expands_lines answers here (fun e inner file source here found => ?_) _ e fun line member
      inner asks => includes_of_codeLines found member asks
    exact ih e file here found (by rw [List.length_cons]; omega)

/-- An expansion ends with what it comes to line by line, whatever the depth allowed beyond the
number of texts. -/
theorem expand_expands : Expands look [root] (.start root) (state [root]) (codeLines 0 text)
    (expand texts root text) (state (expand texts root text).named.toList) :=
  expands_addText answers _ (.start root) 0 .root (if_pos rfl) (by simp)

end Answers

theorem expand_expandsIn (texts : Texts) (root : String) (text : List UInt8) :
    Expands (lookIn texts) [root] (.start root) () (codeLines 0 text) (expand texts root text) () :=
  @expand_expands Unit (lookIn texts) (fun _ => ()) texts root text fun _ _ => rfl

/-! ### The order in which files are named -/

namespace Expands

variable {texts : Texts} {root : String} {around : List String} {e e' : Expansion} {s s' : Unit}
  {lines : List Line}

theorem unfolds (text : List UInt8) (h : Expands (lookIn texts) around e s lines e' s')
    (rooted : root ∈ around) (opened : around ⊆ e.named.toList)
    (closed : ∀ path ∈ e.named.toList, path ∉ around →
      included texts root text path ⊆ e.named.toList) :
    ∃ up, Unfolds (included texts root text) around
        (requestedPaths lines) up ∧
      e'.named.toList = noted e.named.toList up ∧
      ∀ path ∈ e'.named.toList, path ∉ around →
        included texts root text path ⊆ e'.named.toList := by
  -- Files that are named and not open any more are behind the search with all that they include.
  induction h with
  | done => exact ⟨[], .done, rfl, closed⟩
  | code own _ ih =>
    obtain ⟨up, unfolds, named, closed⟩ := ih rooted opened closed
    refine ⟨up, ?_, named, closed⟩
    rw [requestedPaths_skip (by simp [own])]
    exact unfolds
  | malformed asks _ ih =>
    obtain ⟨up, unfolds, named, closed⟩ := ih rooted opened closed
    refine ⟨up, ?_, named, closed⟩
    rw [requestedPaths_skip (by simp [asks])]
    exact unfolds
  | @inside around e s line lines e' s' path asks entered _ ih =>
    obtain ⟨up, unfolds, named, closed⟩ := ih rooted opened closed
    refine ⟨path :: up, ?_, ?_, closed⟩
    · rw [requestedPaths_cons asks]
      exact .inside entered unfolds
    · rw [noted_old (opened entered)]
      exact named
  | @again around e s line lines e' s' path asks outside old _ ih =>
    obtain ⟨inner, deeper⟩ : ∃ up, Unfolds (included texts root text) (path :: around)
        (included texts root text path) up := exists_unfolding _ _
    have known : inner ⊆ e.named.toList :=
      deeper.subset_of_closed (closed path old outside) fun other member further =>
        closed other member (List.not_mem_of_not_mem_cons further)
    obtain ⟨up, unfolds, named, closed⟩ := ih rooted opened closed
    refine ⟨path :: (inner ++ up), ?_, ?_, closed⟩
    · rw [requestedPaths_cons asks]
      exact .enter outside deeper unfolds
    · rw [noted_old old, noted_append, noted_of_subset known]
      exact named
  | @absent around e s line lines e' s' path asked asks outside new answer _ ih =>
    have looked : sourceOf? texts root text path = none :=
      (sourceOf?_outside rooted outside).trans (congrArg Prod.fst answer)
    have pushed : (e.named.push path).toList = e.named.toList ++ [path] := Array.toList_push
    obtain ⟨up, unfolds, named, closed⟩ := ih rooted
      (fun other member => by simp [opened member]) (by
        intro other member further
        rw [pushed] at member ⊢
        rcases List.mem_append.mp member with before | here
        · exact List.subset_append_of_subset_left _ (closed other before further)
        · rw [List.mem_singleton.mp here, included_absent looked]
          exact List.nil_subset _)
    refine ⟨path :: ([] ++ up), ?_, ?_, closed⟩
    · rw [requestedPaths_cons asks]
      exact .enter outside (by rw [included_absent looked]; exact .done) unfolds
    · rw [noted_new new, List.nil_append, ← pushed]
      exact named
  | @first around e s line lines e' s' path source asked between left asks outside new answer _ _
      withinIh restIh =>
    have looked : sourceOf? texts root text path = some source :=
      (sourceOf?_outside rooted outside).trans (congrArg Prod.fst answer)
    have pushed : (e.named.push path).toList = e.named.toList ++ [path] := Array.toList_push
    obtain ⟨inner, deeper, between', closed⟩ := withinIh (List.mem_cons_of_mem _ rooted)
      (by
        intro other member
        rw [pushed]
        rcases List.mem_cons.mp member with rfl | outer
        · simp
        · exact List.mem_append_left _ (opened outer))
      (by
        intro other member further
        rw [pushed] at member ⊢
        obtain ⟨different, further⟩ := List.ne_and_not_mem_of_not_mem_cons further
        have before : other ∈ e.named.toList := by simpa [different] using member
        exact List.subset_append_of_subset_left _ (closed other before further))
    rw [requestedPaths_codeLines, ← included_eq looked] at deeper
    rw [pushed] at between'
    have known : ∀ other, other ∈ between.named.toList ↔
        other ∈ e.named.toList ++ [path] ∨ other ∈ inner := by
      intro other
      rw [between', mem_noted]
    obtain ⟨up, unfolds, named, closed⟩ := restIh rooted
      (fun other member => (known other).mpr (.inl (List.mem_append_left _ (opened member)))) (by
        intro other member further
        by_cases same : other = path
        · intro behind found
          exact (known behind).mpr (.inr (deeper.subset (same ▸ found)))
        · exact closed other member (by simp [same, further]))
    refine ⟨path :: (inner ++ up), ?_, ?_, closed⟩
    · rw [requestedPaths_cons asks]
      exact .enter outside deeper unfolds
    · rw [noted_new new, noted_append, ← between']
      exact named

end Expands

/-- An expansion names its files in the order in which they come up first when every include is
followed. -/
theorem named_expand (texts : Texts) (root : String) (text : List UInt8) :
    ∃ up, Unfolds (included texts root text) [] [root] up ∧
      (expand texts root text).named.toList = up.eraseDups := by
  have own : included texts root text root = includedPaths text := included_eq (if_pos rfl)
  obtain ⟨up, unfolds, named, _⟩ := (expand_expandsIn texts root text).unfolds text
    (List.mem_singleton_self root) (List.Subset.refl _) fun path member outside =>
      absurd member outside
  rw [requestedPaths_codeLines, ← own] at unfolds
  refine ⟨root :: (up ++ []), .enter List.not_mem_nil unfolds .done, ?_⟩
  rw [List.append_nil, ← noted_nil, noted_new List.not_mem_nil, named]
  rfl

theorem named_eq_cons_asked (texts : Texts) (root : String) (text : List UInt8) :
    (expand texts root text).named.toList = root :: (expand texts root text).asked := by
  obtain ⟨up, unfolds, named⟩ := named_expand texts root text
  cases unfolds with
  | inside entered => cases entered
  | enter => rw [asked, named, List.eraseDups_cons, List.tail_cons]

theorem nodup_named (texts : Texts) (root : String) (text : List UInt8) :
    (expand texts root text).named.toList.Nodup := by
  obtain ⟨up, _, named⟩ := named_expand texts root text
  rw [named, ← noted_nil]
  exact nodup_noted List.nodup_nil

/-- An expansion names the files that can be reached from its root, and no others. -/
theorem mem_named_expand (texts : Texts) (root : String) (text : List UInt8) (path : String) :
    path ∈ (expand texts root text).named.toList ↔
      ReflTransGen (Includes texts root text) root path := by
  have step : Includes texts root text = fun outer inner => inner ∈ included texts root text outer :=
    funext fun _ => funext fun _ => propext includes_iff
  obtain ⟨up, unfolds, named⟩ := named_expand texts root text
  rw [named, List.mem_eraseDups, unfolds.mem_iff, step]

/-- An expansion is incomplete exactly if a file that it looked up is not at hand. -/
theorem missing_expand (texts : Texts) (root : String) (text : List UInt8) :
    (expand texts root text).missing = true ↔
      ∃ path ∈ (expand texts root text).asked, texts.lookup path = none := by
  constructor
  · intro missing
    rcases (expand_expandsIn texts root text).named_of_missing missing with
      before | ⟨path, member, new, absent⟩
    · cases before
    · rw [named_eq_cons_asked] at member
      exact ⟨path, (List.mem_cons.mp member).resolve_left fun same => new (by simp [start, same]),
        absent⟩
  · rintro ⟨path, member, absent⟩
    by_contra unmarked
    have complete : (expand texts root text).missing = false := by simpa using unmarked
    have found := asked_at_hand texts root text complete path member
    rw [absent] at found
    cases found

end RobotArena.Assembly
