import RobotArena.Proofs.Assembly.Expands

/-!
# Which files are read

`Visits` is the search in depth that an expansion makes: which files it reads, and which files are
open around each of them. The main statements are that an expansion takes in the lines of these
files, each once, and that a file includes itself exactly if one of them includes a file that is
open.
-/

namespace RobotArena.Assembly

open Expansion Relation

/-! ### Visits of files -/

/-- One reading of a file: its path, the files that are open around it, the innermost first, and its
text. -/
structure Visit where
  path : String
  outside : List String
  text : List UInt8

/-- The files that are read for some paths, one after another: those that were not seen before, each
followed by what is read for the paths that it includes. `seen` are the paths seen before, `seen'`
those seen in the end. -/
inductive Visits (texts : Texts) :
    List String → List String → List String → List Visit → List String → Prop
  | done {opened seen} : Visits texts opened seen [] [] seen
  | skip {opened seen path paths visits seen'} (old : path ∈ seen)
      (rest : Visits texts opened seen paths visits seen') :
      Visits texts opened seen (path :: paths) visits seen'
  | enter {opened seen path paths source inner between later seen'} (new : path ∉ seen)
      (found : texts.lookup path = some source)
      (within : Visits texts (path :: opened) (seen ++ [path]) (includedPaths source) inner between)
      (rest : Visits texts opened between paths later seen') :
      Visits texts opened seen (path :: paths) (⟨path, opened, source⟩ :: (inner ++ later)) seen'

/-- The files that are read for a root, in the order in which they are opened. -/
def Visited (texts : Texts) (root : String) (text : List UInt8) (visits : List Visit) : Prop :=
  ∃ inner seen, Visits texts [root] [root] (includedPaths text) inner seen ∧
    visits = ⟨root, [], text⟩ :: inner

namespace Visits

variable {texts : Texts} {root : String} {text : List UInt8}
  {opened seen paths seen' seen'' : List String} {visits visits' : List Visit}

theorem unique (one : Visits texts opened seen paths visits seen')
    (two : Visits texts opened seen paths visits' seen'') : visits' = visits ∧ seen'' = seen' := by
  induction one generalizing visits' seen'' with
  | done =>
    cases two
    exact ⟨rfl, rfl⟩
  | skip old _ ih =>
    cases two with
    | skip _ rest => exact ih rest
    | enter new => exact absurd old new
  | enter new found _ _ withinIh restIh =>
    cases two with
    | skip old => exact absurd old new
    | enter _ found' within rest =>
      cases found.symm.trans found'
      obtain ⟨rfl, rfl⟩ := withinIh within
      obtain ⟨rfl, rfl⟩ := restIh rest
      exact ⟨rfl, rfl⟩

theorem seen_eq (h : Visits texts opened seen paths visits seen') :
    seen' = seen ++ visits.map Visit.path := by
  induction h with
  | done => exact (List.append_nil _).symm
  | skip _ _ ih => exact ih
  | enter _ _ _ _ withinIh restIh =>
    rw [restIh, withinIh]
    simp

theorem covers (h : Visits texts opened seen paths visits seen') : paths ⊆ seen' := by
  induction h with
  | done => exact List.nil_subset _
  | @skip opened seen path paths visits seen' old rest ih =>
    refine List.cons_subset.mpr ⟨?_, ih⟩
    rw [rest.seen_eq]
    exact List.mem_append_left _ old
  | @enter opened seen path paths source inner between later seen' _ _ within rest _ ih =>
    refine List.cons_subset.mpr ⟨?_, ih⟩
    rw [rest.seen_eq, within.seen_eq]
    simp

/-- The files around a visit include each other up to the root. -/
theorem around {outer : String} (h : Visits texts (outer :: opened) seen paths visits seen')
    (here : Around texts root text (outer :: opened)) (known : outer :: opened ⊆ seen)
    (includes : ∀ path ∈ paths, Includes texts root text outer path) :
    ∀ v ∈ visits, Around texts root text (v.path :: v.outside) ∧
      sourceOf? texts root text v.path = some v.text := by
  generalize all : outer :: opened = files at h here known
  induction h generalizing outer opened with
  | done => exact nofun
  | skip _ _ ih =>
    exact ih (fun path member => includes path (List.mem_cons_of_mem _ member)) all here known
  | @enter files seen path paths source inner between later seen' new found within _ withinIh
      restIh =>
    subst all
    have outside : path ∉ outer :: opened := fun entered => new (known entered)
    have looked : sourceOf? texts root text path = some source :=
      (sourceOf?_outside here.root_mem outside).trans found
    have inside := here.file (includes path List.mem_cons_self) outside (by rw [looked]; rfl)
    have grown : seen ++ [path] ⊆ between := by
      rw [within.seen_eq]
      exact List.subset_append_left _ _
    intro v member
    rcases List.mem_cons.mp member with rfl | further
    · exact ⟨inside, looked⟩
    rcases List.mem_append.mp further with deeper | behind
    · refine withinIh (fun inner member => ?_) rfl inside ?_ v deeper
      · rwa [includes_iff, included_eq looked]
      · exact List.cons_subset.mpr ⟨by simp, List.subset_append_of_subset_left _ known⟩
    · exact restIh (fun other member => includes other (List.mem_cons_of_mem _ member)) rfl here
        (List.Subset.trans (List.subset_append_of_subset_left _ known) grown) v behind

/-- If no file that is read includes one that is open, then no chain of includes goes on for ever
from a file that was seen and is not open. -/
theorem grounded (text : List UInt8) (h : Visits texts opened seen paths visits seen')
    (rooted : root ∈ opened) (known : opened ⊆ seen) (own : ∀ path ∈ paths, path ∉ opened)
    (free : ∀ v ∈ visits, ∀ path ∈ includedPaths v.text, path ∉ v.path :: v.outside)
    (ends : ∀ path ∈ seen, path ∉ opened →
      Acc (fun inner outer => Includes texts root text outer inner) path) :
    ∀ path ∈ seen', path ∉ opened →
      Acc (fun inner outer => Includes texts root text outer inner) path := by
  induction h with
  | done => exact ends
  | skip _ _ ih =>
    exact ih rooted known (fun path member => own path (List.mem_cons_of_mem _ member)) free ends
  | @enter opened seen path paths source inner between later seen' new found within _ withinIh
      restIh =>
    have outside : path ∉ opened := own path List.mem_cons_self
    have looked : sourceOf? texts root text path = some source :=
      (sourceOf?_outside rooted outside).trans found
    have behind : ∀ other ∈ includedPaths source, other ∉ path :: opened :=
      free _ List.mem_cons_self
    have deeper := withinIh (List.mem_cons_of_mem _ rooted)
      (List.cons_subset.mpr ⟨by simp, List.subset_append_of_subset_left _ known⟩) behind
      (fun v member => free v (by simp [member])) (fun other member further => by
        obtain ⟨different, further⟩ := List.ne_and_not_mem_of_not_mem_cons further
        exact ends other (by simpa [different] using member) further)
    have here : Acc (fun inner outer => Includes texts root text outer inner) path := by
      refine .intro path fun inner includes => ?_
      rw [includes_iff, included_eq looked] at includes
      exact deeper inner (within.covers includes) (behind inner includes)
    refine restIh rooted ?_ (fun other member => own other (List.mem_cons_of_mem _ member))
      (fun v member => free v (by simp [member])) fun other member further => ?_
    · rw [within.seen_eq]
      exact List.Subset.trans known (by simp)
    · by_cases same : other = path
      · exact same ▸ here
      · exact deeper other member (by simp [same, further])

end Visits

section Visited

variable {texts : Texts} {root : String} {text : List UInt8} {visits : List Visit}

theorem Visited.unique {visits' : List Visit} (one : Visited texts root text visits)
    (two : Visited texts root text visits') : visits' = visits := by
  obtain ⟨inner, seen, within, rfl⟩ := one
  obtain ⟨inner', seen', within', rfl⟩ := two
  rw [(within.unique within').1]

theorem Visited.around (h : Visited texts root text visits) :
    ∀ v ∈ visits, Around texts root text (v.path :: v.outside) ∧
      sourceOf? texts root text v.path = some v.text := by
  obtain ⟨inner, seen, within, rfl⟩ := h
  have own : sourceOf? texts root text root = some text := if_pos rfl
  refine List.forall_mem_cons.mpr ⟨⟨.root, own⟩, within.around .root (List.Subset.refl _) ?_⟩
  intro path member
  rwa [includes_iff, included_eq own]

/-- If no file that is read includes one that is open, then no file includes itself. -/
theorem Visited.noCycle (h : Visited texts root text visits)
    (free : ∀ v ∈ visits, ∀ path ∈ includedPaths v.text, path ∉ v.path :: v.outside) :
    NoCycle texts root text := by
  obtain ⟨inner, seen, within, rfl⟩ := h
  have behind := free _ List.mem_cons_self
  have ends := within.grounded text (List.mem_singleton_self root) (List.Subset.refl _)
    behind (fun v member => free v (List.mem_cons_of_mem _ member))
    fun path member outside => absurd member outside
  have start : Acc (fun inner outer => Includes texts root text outer inner) root := by
    refine .intro root fun inner includes => ?_
    rw [includes_iff, included_eq (if_pos rfl)] at includes
    exact ends inner (within.covers includes) (behind inner includes)
  intro path reached
  have here : Acc (fun inner outer => Includes texts root text outer inner) path := by
    induction reached with
    | refl => exact start
    | tail _ last ih => exact ih.inv last
  induction here with
  | intro path _ ih =>
    -- A cycle goes through the next file too.
    intro cycle
    obtain ⟨next, includes, back⟩ := TransGen.head'_iff.mp cycle
    exact ih next includes (reached.tail includes) (TransGen.tail' back includes)

end Visited

/-! ### What an expansion makes of the lines that are read -/

/-- What is wrong with a line that is read while some files are open. -/
def lineFault (opened : List String) (line : Line) : Option Fault :=
  match request line.text with
  | .code => none
  | .malformed => some .includeForm
  | .file path => if path ∈ opened then some (.includeCycle path) else none

/-- The lines of a visit that hold code, each with the files that are open when it is read, if the
file has a given number. -/
def Visit.reads (v : Visit) (number : Nat) : List (Line × List String) :=
  (codeLines (UInt16.ofNat number) v.text).map fun line => (line, v.path :: v.outside)

/-- The lines that are read on some visits, the first of them to the file with a given number. -/
def readsOf (visits : List Visit) (first : Nat) : List (Line × List String) :=
  (visits.zipIdx first).flatMap fun x => x.1.reads x.2

theorem readsOf_cons (v : Visit) (visits : List Visit) (first : Nat) :
    readsOf (v :: visits) first = v.reads first ++ readsOf visits (first + 1) := rfl

theorem readsOf_append (visits later : List Visit) (first : Nat) :
    readsOf (visits ++ later) first =
      readsOf visits first ++ readsOf later (first + visits.length) := by
  unfold readsOf
  rw [List.zipIdx_append, List.flatMap_append, Nat.add_comm first]

theorem file_codeLines {file : UInt16} {source : List UInt8} {line : Line}
    (member : line ∈ codeLines file source) : line.file = file := by
  obtain ⟨x, _, here⟩ := List.mem_filterMap.mp member
  unfold codeLine? at here
  dsimp only at here
  split at here
  · cases here
  · cases here
    rfl

theorem diagnose_grown {files files' : Array String} (grown : files.toList <+: files'.toList)
    {line : Line} (placed : line.file.toNat < files.size) (fault : Fault) :
    line.diagnose files' fault = line.diagnose files fault := by
  obtain ⟨more, grown⟩ := grown
  have same : files'[line.file.toNat]? = files[line.file.toNat]? := by
    rw [← Array.getElem?_toList, ← grown, List.getElem?_append_left placed, Array.getElem?_toList]
  unfold Line.diagnose
  rw [Array.getD_eq_getD_getElem?, Array.getD_eq_getD_getElem?, same]

theorem lineFault_cycle {opened : List String} {line : Line} {path : String} :
    lineFault opened line = some (.includeCycle path) ↔
      path ∈ opened ∧ request line.text = .file path := by
  unfold lineFault
  cases request line.text with
  | code => simp
  | malformed => simp
  | file other =>
    by_cases entered : other ∈ opened
    · simp only [entered, if_true, Option.some.injEq, Fault.includeCycle.injEq, Request.file.injEq]
      exact ⟨fun same => ⟨same ▸ entered, same⟩, And.right⟩
    · simp only [entered, if_false, Request.file.injEq, reduceCtorEq, false_iff]
      exact fun both => entered (both.2 ▸ both.1)

/-- An expansion that has read some lines, each while some files are open: it has taken in those
that hold code and noted what is wrong with the others. -/
structure Took (e e' : Expansion) (read : List (Line × List String)) : Prop where
  files : e.files.toList <+: e'.files.toList
  placed : ∀ x ∈ read, x.1.file.toNat < e'.files.size
  lines : e'.lines.toList =
    e.lines.toList ++ (read.map Prod.fst).filter fun line => request line.text = .code
  diagnostics : e'.diagnostics.toList = e.diagnostics.toList ++
    read.filterMap fun x => (lineFault x.2 x.1).map (x.1.diagnose e'.files)

namespace Took

variable {e e' e'' : Expansion} {read more : List (Line × List String)}

theorem refl (e : Expansion) : Took e e [] where
  files := List.prefix_rfl
  placed := List.forall_mem_nil _
  lines := (List.append_nil _).symm
  diagnostics := (List.append_nil _).symm

theorem append (one : Took e e' read) (two : Took e' e'' more) : Took e e'' (read ++ more) where
  files := one.files.trans two.files
  placed := by
    intro x member
    rcases List.mem_append.mp member with first | second
    · exact Nat.lt_of_lt_of_le (one.placed x first) two.files.length_le
    · exact two.placed x second
  lines := by rw [two.lines, one.lines, List.map_append, List.filter_append, List.append_assoc]
  diagnostics := by
    have same : read.filterMap (fun x => (lineFault x.2 x.1).map (x.1.diagnose e'.files)) =
        read.filterMap fun x => (lineFault x.2 x.1).map (x.1.diagnose e''.files) := by
      refine List.filterMap_congr fun x member => ?_
      congr 1
      exact funext fun fault => (diagnose_grown two.files (one.placed x member) fault).symm
    rw [two.diagnostics, one.diagnostics, same, List.filterMap_append, List.append_assoc]

theorem code {line : Line} (own : request line.text = .code) (opened : List String)
    (placed : line.file.toNat < e.files.size) :
    Took e { e with lines := e.lines.push line } [(line, opened)] where
  files := List.prefix_rfl
  placed := by simpa using placed
  lines := by simp [own]
  diagnostics := by simp [lineFault, own]

theorem reject {line : Line} {opened : List String} {fault : Fault}
    (asks : request line.text ≠ .code) (wrong : lineFault opened line = some fault)
    (placed : line.file.toNat < e.files.size) :
    Took e (e.reject line fault) [(line, opened)] where
  files := List.prefix_rfl
  placed := by simpa [Expansion.reject] using placed
  lines := by simp [asks, Expansion.reject]
  diagnostics := by simp [wrong, Expansion.reject]

theorem silent {line : Line} {path : String} (asks : request line.text = .file path)
    {opened : List String} (outside : path ∉ opened) (placed : line.file.toNat < e.files.size) :
    Took e e [(line, opened)] where
  files := List.prefix_rfl
  placed := by simpa using placed
  lines := by simp [asks]
  diagnostics := by simp [lineFault, asks, outside]

theorem opens (e : Expansion) (path : String) :
    Took e { e with named := e.named.push path, files := e.files.push path } [] where
  files := by simp
  placed := List.forall_mem_nil _
  lines := (List.append_nil _).symm
  diagnostics := (List.append_nil _).symm

end Took

namespace Expands

variable {texts : Texts} {opened : List String} {e e' : Expansion} {s s' : Unit} {lines : List Line}

theorem missing_of (h : Expands (lookIn texts) opened e s lines e' s')
    (missing : e.missing = true) : e'.missing = true := by
  induction h with
  | done => exact missing
  | code _ _ ih | malformed _ _ ih | inside _ _ _ ih | again _ _ _ _ ih => exact ih missing
  | absent _ _ _ _ _ ih => exact ih rfl
  | first _ _ _ _ _ _ withinIh restIh => exact restIh (withinIh missing)

/-- What is read for some lines is their own code and that of the files visited for them. -/
theorem visits (h : Expands (lookIn texts) opened e s lines e' s') (complete : e'.missing = false)
    (known : opened ⊆ e.named.toList) (placed : ∀ line ∈ lines, line.file.toNat < e.files.size) :
    ∃ visits read,
      Visits texts opened e.named.toList (requestedPaths lines) visits e'.named.toList ∧
      e'.files.toList = e.files.toList ++ visits.map Visit.path ∧ Took e e' read ∧
      read.Perm (lines.map (·, opened) ++ readsOf visits e.files.size) := by
  induction h with
  | done => exact ⟨[], [], .done, (List.append_nil _).symm, .refl _, .nil⟩
  | @code opened e s line lines e' s' own _ ih =>
    obtain ⟨here, placed⟩ := List.forall_mem_cons.mp placed
    obtain ⟨visits, read, search, files, took, same⟩ := ih complete known placed
    refine ⟨visits, _, ?_, files, (Took.code own opened here).append took, same.cons _⟩
    rw [requestedPaths_skip (by simp [own])]
    exact search
  | @malformed opened e s line lines e' s' asks _ ih =>
    obtain ⟨here, placed⟩ := List.forall_mem_cons.mp placed
    obtain ⟨visits, read, search, files, took, same⟩ := ih complete known placed
    have wrong : lineFault opened line = some .includeForm := by rw [lineFault, asks]
    have first := Took.reject (by simp [asks]) wrong here
    refine ⟨visits, _, ?_, files, first.append took, same.cons _⟩
    rw [requestedPaths_skip (by simp [asks])]
    exact search
  | @inside opened e s line lines e' s' path asks entered _ ih =>
    obtain ⟨here, placed⟩ := List.forall_mem_cons.mp placed
    obtain ⟨visits, read, search, files, took, same⟩ := ih complete known placed
    have wrong : lineFault opened line = some (.includeCycle path) := by
      rw [lineFault, asks]
      exact if_pos entered
    have first := Took.reject (by simp [asks]) wrong here
    refine ⟨visits, _, ?_, files, first.append took, same.cons _⟩
    rw [requestedPaths_cons asks]
    exact .skip (known entered) search
  | @again opened e s line lines e' s' path asks outside old _ ih =>
    obtain ⟨here, placed⟩ := List.forall_mem_cons.mp placed
    obtain ⟨visits, read, search, files, took, same⟩ := ih complete known placed
    refine ⟨visits, _, ?_, files, (Took.silent asks outside here).append took, same.cons _⟩
    rw [requestedPaths_cons asks]
    exact .skip old search
  | absent _ _ _ _ rest =>
    rw [rest.missing_of rfl] at complete
    cases complete
  | @first opened e s line lines e' s' path source asked between left asks outside new answer within
      rest withinIh restIh =>
    obtain ⟨here, placed⟩ := List.forall_mem_cons.mp placed
    have whole : between.missing = false := by
      by_contra absent
      rw [rest.missing_of (by simpa using absent)] at complete
      cases complete
    have pushed : (e.named.push path).toList = e.named.toList ++ [path] := Array.toList_push
    obtain ⟨inner, readWithin, searchWithin, filesWithin, tookWithin, sameWithin⟩ := withinIh whole
      (by
        rw [pushed]
        exact List.cons_subset.mpr ⟨by simp, List.subset_append_of_subset_left _ known⟩)
      (by
        intro line member
        rw [file_codeLines member, UInt16.toNat_ofNat', Array.size_push]
        exact Nat.lt_succ_of_le (Nat.mod_le _ _))
    have size : between.files.size = e.files.size + 1 + inner.length := by
      rw [← Array.length_toList, filesWithin]
      simp only [List.length_append, Array.length_toList, Array.size_push, List.length_map]
    obtain ⟨later, readLater, searchLater, filesLater, tookLater, sameLater⟩ := restIh complete
      (List.Subset.trans (pushed ▸ List.subset_append_of_subset_left _ known) within.named_subset)
      fun line member => Nat.lt_of_lt_of_le (placed line member) (by omega)
    have inside := ((Took.silent asks outside here).append (.opens e path)).append tookWithin
    refine ⟨⟨path, opened, source⟩ :: (inner ++ later), _, ?_, ?_, inside.append tookLater, ?_⟩
    · rw [requestedPaths_cons asks]
      rw [requestedPaths_codeLines, pushed] at searchWithin
      exact .enter new (congrArg Prod.fst answer) searchWithin searchLater
    · rw [filesLater, filesWithin]
      simp
    · refine List.Perm.cons _ ?_
      rw [Array.size_push] at sameWithin
      rw [size] at sameLater
      rw [readsOf_cons, readsOf_append, ← List.append_assoc (Visit.reads _ _)]
      -- The lines behind the include are read after the whole file.
      exact (sameWithin.append sameLater).trans (List.perm_append_comm_assoc _ _ _)

end Expands

section Expand

variable {texts : Texts} {root : String} {text : List UInt8} {visits : List Visit}

theorem mem_readsOf {first : Nat} {x : Line × List String} :
    x ∈ readsOf visits first ↔ ∃ v number, (v, number) ∈ visits.zipIdx first ∧
      x.1 ∈ codeLines (UInt16.ofNat number) v.text ∧ x.2 = v.path :: v.outside := by
  constructor
  · intro member
    obtain ⟨y, here, inside⟩ := List.mem_flatMap.mp member
    obtain ⟨line, known, rfl⟩ := List.mem_map.mp inside
    exact ⟨y.1, y.2, here, known, rfl⟩
  · rintro ⟨v, number, here, known, same⟩
    refine List.mem_flatMap.mpr ⟨(v, number), here, List.mem_map.mpr ⟨x.1, known, ?_⟩⟩
    rw [← same]

/-- There is a cycle exactly if a file that is read includes one that is open by then. -/
theorem Visited.cycle_iff (h : Visited texts root text visits) :
    ¬ NoCycle texts root text ↔
      ∃ x ∈ readsOf visits 0, ∃ path ∈ x.2, request x.1.text = .file path := by
  constructor
  · intro cycle
    by_contra free
    refine cycle (h.noCycle fun v member path includes opened => free ?_)
    obtain ⟨number, numbered⟩ : ∃ number, (v, number) ∈ visits.zipIdx := by
      rw [← List.zipIdx_map_fst 0 visits] at member
      obtain ⟨x, numbered, rfl⟩ := List.mem_map.mp member
      exact ⟨x.2, numbered⟩
    rw [← requestedPaths_codeLines (UInt16.ofNat number)] at includes
    obtain ⟨line, known, asks⟩ := List.mem_filterMap.mp includes
    exact ⟨(line, v.path :: v.outside), mem_readsOf.mpr ⟨v, number, numbered, known, rfl⟩, path,
      opened, requestedPath?_eq_some.mp asks⟩
  · rintro ⟨x, member, path, opened, asks⟩
    obtain ⟨v, number, numbered, known, same⟩ := mem_readsOf.mp member
    obtain ⟨here, found⟩ := h.around v (List.fst_mem_of_mem_zipIdx numbered)
    exact here.cycle (includes_of_codeLines found known asks) (same ▸ opened)

theorem complete_of_atHand (atHand : AtHand texts root text) :
    (expand texts root text).missing = false := by
  by_contra missing
  obtain ⟨path, asked, absent⟩ := (missing_expand texts root text).mp (by simpa using missing)
  have distinct := nodup_named texts root text
  have reached := mem_named_expand texts root text path
  rw [named_eq_cons_asked] at distinct reached
  have other : path ≠ root := fun same => (List.nodup_cons.mp distinct).1 (same ▸ asked)
  have found := atHand path (reached.mp (List.mem_cons_of_mem _ asked))
  rw [sourceOf?, if_neg other, absent] at found
  cases found

theorem atHand_of_complete (complete : (expand texts root text).missing = false) :
    AtHand texts root text := by
  intro path reached
  have named := (mem_named_expand texts root text path).mpr reached
  rw [named_eq_cons_asked] at named
  unfold sourceOf?
  split
  · rfl
  · rename_i other
    have asked := (List.mem_cons.mp named).resolve_left other
    exact asked_at_hand texts root text complete path asked

/-- What an expansion takes in and reports is that of the files which are visited, each once. -/
theorem visited_expand (complete : (expand texts root text).missing = false) :
    ∃ visits, Visited texts root text visits ∧
      (expand texts root text).named.toList = visits.map Visit.path ∧
      (expand texts root text).files.toList = visits.map Visit.path ∧
      (expand texts root text).lines.toList.Perm
        (((readsOf visits 0).map Prod.fst).filter fun line => request line.text = .code) ∧
      (expand texts root text).diagnostics.toList.Perm
        ((readsOf visits 0).filterMap fun x =>
          (lineFault x.2 x.1).map (x.1.diagnose (expand texts root text).files)) := by
  obtain ⟨inner, read, search, files, took, same⟩ :=
    (expand_expandsIn texts root text).visits complete (List.Subset.refl _) (by
      intro line member
      rw [file_codeLines member]
      exact Nat.zero_lt_one)
  rw [requestedPaths_codeLines] at search
  refine ⟨⟨root, [], text⟩ :: inner, ⟨inner, _, search, rfl⟩, search.seen_eq, files, ?_, ?_⟩
  · exact took.lines ▸ (same.map Prod.fst).filter _
  · exact took.diagnostics ▸ same.filterMap _

/-- An expansion without faults has gone through no cycle. -/
theorem noCycle_of_clean (complete : (expand texts root text).missing = false)
    (clean : faulty (expand texts root text).diagnostics = false) : NoCycle texts root text := by
  obtain ⟨visits, visited, _, _, _, diagnostics⟩ := visited_expand complete
  by_contra cycle
  obtain ⟨x, member, path, opened, asks⟩ := visited.cycle_iff.mp cycle
  have wrong := lineFault_cycle.mpr ⟨opened, asks⟩
  have reported : x.1.diagnose (expand texts root text).files (.includeCycle path) ∈
      (expand texts root text).diagnostics := by
    rw [← Array.mem_toList_iff, diagnostics.mem_iff]
    exact List.mem_filterMap.mpr ⟨x, member, by rw [wrong]; rfl⟩
  have bad : faulty (expand texts root text).diagnostics = true :=
    Array.any_eq_true'.mpr ⟨_, reported, rfl⟩
  rw [clean] at bad
  cases bad
end Expand

end RobotArena.Assembly
