import RobotArena.Proofs.Assembly.Expands
import RobotArena.Proofs.Compilation.Reading
import Mathlib.Data.List.Nodup

/-!
# What a job asks the library for

A job looks sources up while it goes through the lines, and a lookup can start a fetch, so the library
changes under it. `Job.Converses` says how a job runs in this way. The main statement is that it comes
to the job's outcome, and that it asks for its source and all that it includes, each source once and
in the order in which they come up when every include is followed.
-/

namespace RobotArena

open Assembly Relation

namespace Library

/-! ### Fetches one after another -/

theorem find?_foldl_fetch (l : Library) (sources : List SourceId) (source : SourceId) :
    (sources.foldl fetch l).find? source =
      if source ∈ sources ∧ l.find? source = none then some (.fetching 0) else l.find? source := by
  induction sources generalizing l with
  | nil => simp
  | cons first rest ih =>
    rw [List.foldl_cons, ih, find?_fetch]
    by_cases same : source = first
    · subst same
      cases l.find? source <;> simp
    · simp [same]

theorem fetches_foldl_fetch (l : Library) {sources : List SourceId} (distinct : sources.Nodup) :
    (sources.foldl fetch l).fetches =
      l.fetches ++ sources.filter fun source => l.find? source = none := by
  induction sources generalizing l with
  | nil => simp
  | cons first rest ih =>
    obtain ⟨new, distinct⟩ := List.nodup_cons.mp distinct
    have others : rest.filter (fun source => (l.fetch first).find? source = none) =
        rest.filter fun source => l.find? source = none := by
      refine List.filter_congr fun source member => ?_
      rw [find?_fetch, if_neg fun same : source = first => new (same ▸ member)]
    rw [List.foldl_cons, ih _ distinct, others]
    cases known : l.find? first with
    | some a => simp [fetch, known]
    | none => simp [fetch, known, set]

section Known

variable {l : Library} {source : SourceId} {text : List UInt8} (known : l.text? source = some text)

include known

theorem find?_of_text? : l.find? source = some (.available text) := by
  unfold text? at known
  split at known
  · rename_i found
    cases known
    exact found
  · cases known

theorem fetch_of_text? : l.fetch source = l := by
  rw [fetch, find?_of_text? known]
  rfl

theorem outstanding?_of_text? : l.outstanding? source = none := by
  rw [outstanding?, find?_of_text? known]

end Known

/-- The sources that a source's text includes, in order. -/
def included (l : Library) (source : SourceId) : List SourceId :=
  ((l.text? source).map fun text => (includedPaths text).map source.sibling).getD []

/-- The text of one source is at hand and includes another one. -/
def Includes (l : Library) (outer inner : SourceId) : Prop :=
  inner ∈ l.included outer

end Library

/-! ### A job while it runs -/

/-- What a running job knows: the library as it is by then, the sources that it has asked for, those
that it depends on besides its own, and how far the fetches are that it waits for. -/
structure Inquiry where
  library : Library
  asked : List SourceId := []
  dependencies : List SourceId := []
  outstanding : List Binary32 := []

namespace Inquiry

/-- Looks a source up. If nothing is known of it, its fetch starts. -/
def ask (source : SourceId) (q : Inquiry) : Option (List UInt8) × Inquiry :=
  let asked := q.asked ++ [source]
  match q.library.find? source with
  | some (.available text) => (some text, { q with asked })
  | some (.fetching fraction) =>
    (none, { q with asked, outstanding := q.outstanding ++ [fraction.clamp 0 1] })
  | none =>
    (none, { q with library := q.library.fetch source, asked, outstanding := q.outstanding ++ [0] })

/-- Notes that the job depends on a source, unless that is its own or was noted before. -/
def depend (own source : SourceId) (q : Inquiry) : Inquiry :=
  if source = own ∨ source ∈ q.dependencies then q
  else { q with dependencies := q.dependencies ++ [source] }

/-- How the job ends, once all lines are taken in. -/
def report (q : Inquiry) (externals : List Signature) (e : Expansion) : JobOutcome :=
  match Outcome.ofExpansion externals e with
  | .compiled program => .compiled program q.dependencies
  | .failed diagnostics => .failed diagnostics q.dependencies
  | .incomplete => .waiting (.mean q.outstanding)

end Inquiry

namespace Job

/-- How a job looks up a path that a line names. -/
def look (job : Job) : Lookup Inquiry := fun path q =>
  (q.depend job.source (job.source.sibling path)).ask (job.source.sibling path)

/-- How a job runs: it looks its source up, and if the text is at hand takes in the lines, looking
up what they include. -/
inductive Converses (job : Job) (externals : List Signature) (l : Library) :
    JobOutcome → Inquiry → Prop
  | absent {q} (answer : Inquiry.ask job.source { library := l } = (none, q)) :
      Converses job externals l (.waiting (.mean q.outstanding)) q
  | read {text started e q} (answer : Inquiry.ask job.source { library := l } = (some text, started))
      (expands : Expands job.look [job.source.path] (.start job.source.path) started
        (Expansion.codeLines 0 text) e q) :
      Converses job externals l (q.report externals e) q

theorem Converses.unique {job : Job} {externals : List Signature} {l : Library}
    {outcome outcome' : JobOutcome} {q q' : Inquiry} (one : job.Converses externals l outcome q)
    (two : job.Converses externals l outcome' q') : outcome' = outcome ∧ q' = q := by
  cases one with
  | absent answer =>
    cases two with
    | absent answer' =>
      cases answer.symm.trans answer'
      exact ⟨rfl, rfl⟩
    | read answer' => cases answer.symm.trans answer'
  | read answer expands =>
    cases two with
    | absent answer' => cases answer.symm.trans answer'
    | read answer' expands' =>
      cases answer.symm.trans answer'
      obtain ⟨rfl, rfl⟩ := expands.unique expands'
      exact ⟨rfl, rfl⟩

end Job

/-! ### What is known after some lookups -/

namespace Inquiry

theorem ask_eq (source : SourceId) (q : Inquiry) :
    q.ask source = (q.library.text? source,
      { q with
        library := q.library.fetch source
        asked := q.asked ++ [source]
        outstanding := q.outstanding ++ (q.library.outstanding? source).toList }) := by
  unfold ask Library.text? Library.outstanding?
  dsimp only
  cases known : q.library.find? source with
  | none => rfl
  | some a =>
    have same : q.library.fetch source = q.library := by rw [Library.fetch, known]; rfl
    cases a <;> simp [same]

/-- A lookup of a job, for its effect only. -/
def step (own : SourceId) (q : Inquiry) (source : SourceId) : Inquiry :=
  ((q.depend own source).ask source).2

/-- What a job knows that has asked for some sources, all of them different. -/
def after (l : Library) (own : SourceId) (asked : List SourceId) : Inquiry where
  library := asked.foldl Library.fetch l
  asked := asked
  dependencies := asked.filter (· ≠ own)
  outstanding := asked.filterMap l.outstanding?

theorem step_after (l : Library) (own : SourceId) {asked : List SourceId} {source : SourceId}
    (new : source ∉ asked) : (after l own asked).step own source = after l own (asked ++ [source]) := by
  have known : (asked.foldl Library.fetch l).find? source = l.find? source := by
    rw [Library.find?_foldl_fetch, if_neg fun both => new both.1]
  have fraction : (asked.foldl Library.fetch l).outstanding? source = l.outstanding? source := by
    unfold Library.outstanding?
    rw [known]
  have last : (l.outstanding? source).toList = [source].filterMap l.outstanding? := by
    cases known : l.outstanding? source <;> simp [known]
  unfold step
  rw [ask_eq]
  unfold depend after
  by_cases same : source = own
  · rw [if_pos (.inl same)]
    dsimp only
    rw [fraction, last, List.filterMap_append, List.foldl_append, List.filter_append,
      List.filter_cons_of_neg (by simpa using same), List.filter_nil, List.append_nil]
    rfl
  · rw [if_neg (by simp [same, new])]
    dsimp only
    rw [fraction, last, List.filterMap_append, List.foldl_append, List.filter_append,
      List.filter_cons_of_pos (by simpa using same), List.filter_nil]
    rfl

theorem foldl_step (l : Library) (own : SourceId) {asked sources : List SourceId}
    (distinct : (asked ++ sources).Nodup) :
    sources.foldl (step own) (after l own asked) = after l own (asked ++ sources) := by
  induction sources generalizing asked with
  | nil => rw [List.append_nil]; rfl
  | cons source rest ih =>
    rw [List.append_cons] at distinct ⊢
    have new : source ∉ asked := fun member => by
      obtain ⟨front, _, _⟩ := List.nodup_append.mp distinct
      exact (List.nodup_append.mp front).2.2 source member source (List.mem_singleton_self _) rfl
    rw [List.foldl_cons, step_after l own new, ih distinct]

/-- A job does not depend on its own source. -/
theorem dependencies_after (l : Library) {own : SourceId} {others : List SourceId}
    (new : own ∉ others) : (after l own (own :: others)).dependencies = others := by
  unfold after
  dsimp only
  rw [List.filter_cons_of_neg (by simp)]
  refine List.filter_eq_self.mpr fun source member => ?_
  simpa using fun same : source = own => new (same ▸ member)

theorem library_foldl_step (own : SourceId) (sources : List SourceId) (q : Inquiry) :
    (sources.foldl (step own) q).library = sources.foldl Library.fetch q.library := by
  induction sources generalizing q with
  | nil => rfl
  | cons source rest ih =>
    have once : (q.step own source).library = q.library.fetch source := by
      unfold step
      rw [ask_eq]
      unfold depend
      split <;> rfl
    rw [List.foldl_cons, ih, once]
    rfl

end Inquiry

namespace Job

variable {l : Library}

theorem sibling_path (source : SourceId) : source.sibling source.path = source := rfl

theorem sibling_injective (source : SourceId) : Function.Injective source.sibling :=
  fun _ _ same => congrArg SourceId.path same

theorem look_eq (job : Job) (distinct : l.Distinct) (named : List String) (path : String) :
    job.look path ((named.map job.source.sibling).foldl (Inquiry.step job.source)
        { library := l }) =
      ((l.textsOf job.source.owner).lookup path,
        ((named ++ [path]).map job.source.sibling).foldl (Inquiry.step job.source)
          { library := l }) := by
  rw [List.map_append, List.foldl_append]
  refine Prod.ext ?_ rfl
  unfold look
  rw [Inquiry.ask_eq, Library.lookup_textsOf distinct]
  have kept : ∀ (q : Inquiry) source, (q.depend job.source source).library = q.library := by
    intro q source
    unfold Inquiry.depend
    split <;> rfl
  rw [kept, Inquiry.library_foldl_step]
  exact (Library.foldl_fetch _ l).1 _

theorem sourceOf?_textsOf (job : Job) (distinct : l.Distinct) {text : List UInt8}
    (root : l.text? job.source = some text) (path : String) :
    sourceOf? (l.textsOf job.source.owner) job.source.path text path =
      l.text? (job.source.sibling path) := by
  unfold sourceOf?
  split
  · rename_i same
    rw [same, sibling_path, root]
  · exact Library.lookup_textsOf distinct path job.source.owner

theorem included_sibling (job : Job) (distinct : l.Distinct) {text : List UInt8}
    (root : l.text? job.source = some text) (path : String) :
    l.included (job.source.sibling path) =
      (Assembly.included (l.textsOf job.source.owner) job.source.path text path).map
        job.source.sibling := by
  unfold Library.included Assembly.included
  rw [sourceOf?_textsOf job distinct root]
  cases l.text? (job.source.sibling path) <;> rfl

/-- A job whose text is at hand comes to its outcome after asking for its source and the paths that
the expansion names. -/
theorem converses_compile (job : Job) (externals : List Signature) (distinct : l.Distinct)
    {text : List UInt8} (root : l.text? job.source = some text) :
    let e := expand (l.textsOf job.source.owner) job.source.path text
    let q := Inquiry.after l job.source (job.source :: e.asked.map job.source.sibling)
    job.Converses externals l (job.compile externals l text).1 q ∧
      q.library = (job.compile externals l text).2 := by
  intro e q
  have different : (job.source :: e.asked.map job.source.sibling).Nodup := by
    have named := List.Nodup.map (sibling_injective job.source)
      (nodup_named (l.textsOf job.source.owner) job.source.path text)
    rwa [named_eq_cons_asked] at named
  have stepped : ∀ asked : List SourceId, (job.source :: asked).Nodup →
      (job.source :: asked).foldl (Inquiry.step job.source) { library := l } =
        Inquiry.after l job.source (job.source :: asked) := fun asked different =>
    @Inquiry.foldl_step l job.source [] _ different
  have expands := @expand_expands _ _ _ _ job.source.path text (look_eq job distinct)
  rw [named_eq_cons_asked, List.map_cons, List.map_cons, List.map_nil, sibling_path,
    stepped _ (List.nodup_singleton _), stepped _ different] at expands
  have answer : Inquiry.ask job.source { library := l } =
      (some text, Inquiry.after l job.source [job.source]) := by
    rw [← stepped _ (List.nodup_singleton _), Inquiry.ask_eq, root]
    simp [Inquiry.step, Inquiry.depend, Inquiry.ask_eq]
  have dependencies : q.dependencies = e.asked.map job.source.sibling :=
    Inquiry.dependencies_after l (List.nodup_cons.mp different).1
  have outstanding : q.outstanding = (e.asked.map job.source.sibling).filterMap l.outstanding? :=
    List.filterMap_cons_none (Library.outstanding?_of_text? root)
  have outcome : q.report externals e = (job.compile externals l text).1 := by
    unfold Inquiry.report
    exact dependencies ▸ outstanding ▸ rfl
  refine ⟨outcome ▸ .read answer expands, ?_⟩
  exact congrArg (List.foldl Library.fetch · _) (Library.fetch_of_text? root)

theorem waiting_compile (job : Job) (externals : List Signature) (text : List UInt8) :
    (∃ progress, (job.compile externals l text).1 = .waiting progress) ↔
      (expand (l.textsOf job.source.owner) job.source.path text).missing = true := by
  rw [← incomplete_iff externals]
  unfold compile
  dsimp only
  generalize Outcome.ofExpansion externals _ = ended
  cases ended <;> simp

theorem dependencies?_of_converses {job : Job} {externals : List Signature} {outcome : JobOutcome}
    {q : Inquiry} (h : job.Converses externals l outcome q) {dependencies : List SourceId}
    (finished : outcome.dependencies? = some dependencies) : dependencies = q.dependencies := by
  cases h with
  | absent => cases finished
  | read =>
    unfold Inquiry.report at finished
    split at finished <;> cases finished <;> rfl

/-- A job comes to its outcome after asking for what comes up when every include is followed, each
source once, and it has to wait exactly if one of them is not at hand. -/
theorem converses_outcome (job : Job) (externals : List Signature) (distinct : l.Distinct) :
    ∃ up, Unfolds l.included [] [job.source] up ∧
      job.Converses externals l (job.outcome externals l).1
        (.after l job.source up.eraseDups) ∧
      (Inquiry.after l job.source up.eraseDups).library = (job.outcome externals l).2 ∧
      ((∃ progress, (job.outcome externals l).1 = .waiting progress) ↔
        ∃ source ∈ up.eraseDups, l.text? source = none) := by
  unfold outcome
  cases root : l.text? job.source with
  | none =>
    have leaf : l.included job.source = [] := by rw [Library.included, root]; rfl
    have alone : [job.source].eraseDups = [job.source] := rfl
    have outstanding : (l.outstanding? job.source).toList = [job.source].filterMap l.outstanding? := by
      cases known : l.outstanding? job.source <;> simp [known]
    have nothing : Unfolds l.included [job.source] (l.included job.source) [] := by
      rw [leaf]
      exact .done
    have unfolds : Unfolds l.included [] [job.source] (job.source :: ([] ++ [])) :=
      .enter List.not_mem_nil nothing .done
    have asked : (Inquiry.after l job.source []).step job.source job.source =
        Inquiry.after l job.source [job.source] := Inquiry.step_after l _ List.not_mem_nil
    have answer : Inquiry.ask job.source { library := l } =
        (none, Inquiry.after l job.source [job.source]) := by
      rw [← asked, Inquiry.ask_eq, root]
      simp [Inquiry.step, Inquiry.depend, Inquiry.ask_eq, Inquiry.after]
    refine ⟨[job.source], unfolds, ?_, rfl, ?_⟩
    · rw [outstanding, alone]
      exact .absent answer
    · simp [alone, root]
  | some text =>
    obtain ⟨up, unfolds, named⟩ := named_expand (l.textsOf job.source.owner) job.source.path text
    rw [named_eq_cons_asked] at named
    have order : (up.map job.source.sibling).eraseDups = job.source ::
        (expand (l.textsOf job.source.owner) job.source.path text).asked.map job.source.sibling := by
      rw [eraseDups_map (sibling_injective job.source), ← named, List.map_cons, sibling_path]
    obtain ⟨converses, library⟩ := job.converses_compile externals distinct root
    refine ⟨up.map job.source.sibling, ?_, order ▸ converses, order ▸ library, ?_⟩
    · exact unfolds.map (sibling_injective job.source) (job.included_sibling distinct root)
    · rw [waiting_compile, missing_expand, order]
      simp [root, Library.lookup_textsOf distinct, SourceId.sibling]

/-- A job comes to an end, in one way only. It asks for its own source first and, if that is at
hand, for all that can be reached from it by includes of texts at hand, each source once and in the
order in which they come up first when every include is followed. It has to wait exactly if one of
them is not at hand, and otherwise depends on exactly those besides its own, in the same order. In
the library only the fetches of those are new of which nothing was known. -/
theorem asks_for_what_is_included (job : Job) (externals : List Signature) (distinct : l.Distinct) :
    ∃ (q : Inquiry) (up : List SourceId),
      job.Converses externals l (job.outcome externals l).1 q ∧
      (∀ outcome other, job.Converses externals l outcome other →
        outcome = (job.outcome externals l).1 ∧ other = q) ∧
      q.library = (job.outcome externals l).2 ∧
      Unfolds l.included [] [job.source] up ∧
      (∀ other, Unfolds l.included [] [job.source] other → other = up) ∧
      q.asked = up.eraseDups ∧ q.asked.Nodup ∧
      (∃ others, q.asked = job.source :: others ∧
        (∀ source, source ∈ others ↔
          source ≠ job.source ∧ ReflTransGen l.Includes job.source source) ∧
        ∀ dependencies, (job.outcome externals l).1.dependencies? = some dependencies →
          dependencies = others) ∧
      ((∃ progress, (job.outcome externals l).1 = .waiting progress) ↔
        ∃ source ∈ q.asked, l.text? source = none) ∧
      (∀ source, q.library.find? source =
        if source ∈ q.asked ∧ l.find? source = none then some (.fetching 0) else l.find? source) ∧
      q.library.fetches = l.fetches ++ q.asked.filter fun source => l.find? source = none := by
  obtain ⟨up, unfolds, converses, library, waits⟩ := job.converses_outcome externals distinct
  have different : up.eraseDups.Nodup := by
    rw [← noted_nil]
    exact nodup_noted List.nodup_nil
  refine ⟨_, up, converses, fun _ _ other => converses.unique other, library, unfolds,
    fun _ other => unfolds.unique other, rfl, different, ?_, waits,
    Library.find?_foldl_fetch l _, Library.fetches_foldl_fetch l different⟩
  obtain ⟨others, order⟩ : ∃ others, up.eraseDups = job.source :: others := by
    cases unfolds with
    | inside entered => cases entered
    | enter => exact ⟨_, List.eraseDups_cons⟩
  have new := order ▸ different
  obtain ⟨new, _⟩ := List.nodup_cons.mp new
  refine ⟨others, order, fun source => ?_, fun dependencies finished => ?_⟩
  · have reached := unfolds.mem_iff source
    rw [← List.mem_eraseDups, order, List.mem_cons] at reached
    constructor
    · intro member
      exact ⟨fun same => new (same ▸ member), reached.mp (.inr member)⟩
    · rintro ⟨other, steps⟩
      exact (reached.mpr steps).resolve_left other
  · rw [dependencies?_of_converses converses finished, order]
    exact Inquiry.dependencies_after l new

/-- A source that two others include, and that includes them again, is on its way. -/
def partialLibrary : Library where
  entries := [
    (.ofPath "main.asm",
      .available (Text.toBytes ".include \"walk.asm\"\n.include \"turn.asm\"\njmp walk\n")),
    (.ofPath "walk.asm",
      .available (Text.toBytes ".include \"size.asm\"\nwalk: nop\n.include \"main.asm\"\n")),
    (.ofPath "size.asm", .fetching 0)]

theorem asks_past_what_is_missing :
    partialLibrary.Distinct ∧
      ∃ q, Converses ⟨.ofPath "main.asm", 0⟩ [] partialLibrary (.waiting (some 0)) q ∧
        q.asked = ["main.asm", "walk.asm", "size.asm", "turn.asm"].map SourceId.ofPath ∧
        q.library.fetches = [.ofPath "turn.asm"] := by
  have distinct : partialLibrary.Distinct := by
    unfold Library.Distinct
    decide +kernel
  have ended : (outcome ⟨.ofPath "main.asm", 0⟩ [] partialLibrary).1 = .waiting (some 0) ∧
      (outcome ⟨.ofPath "main.asm", 0⟩ [] partialLibrary).2.fetches = [.ofPath "turn.asm"] := by
    decide +kernel
  have main : partialLibrary.included (.ofPath "main.asm") =
      [.ofPath "walk.asm", .ofPath "turn.asm"] := by decide +kernel
  have walk : partialLibrary.included (.ofPath "walk.asm") =
      [.ofPath "size.asm", .ofPath "main.asm"] := by decide +kernel
  have leaf : ∀ opened, ∀ path ∈ ["size.asm", "turn.asm"],
      Unfolds partialLibrary.included opened (partialLibrary.included (.ofPath path)) [] := by
    intro opened path member
    have ends : partialLibrary.included (.ofPath path) = [] := by
      revert path
      decide +kernel
    rw [ends]
    exact .done
  have behind : Unfolds partialLibrary.included [.ofPath "walk.asm", .ofPath "main.asm"]
      (partialLibrary.included (.ofPath "walk.asm"))
      (["size.asm", "main.asm"].map SourceId.ofPath) := by
    rw [walk]
    exact .enter (by decide) (leaf _ _ (by decide)) (.inside (by decide) .done)
  have within : Unfolds partialLibrary.included [.ofPath "main.asm"]
      (partialLibrary.included (.ofPath "main.asm"))
      (["walk.asm", "size.asm", "main.asm", "turn.asm"].map SourceId.ofPath) := by
    rw [main]
    exact .enter (by decide) behind (.enter (by decide) (leaf _ _ (by decide)) .done)
  have order : Unfolds partialLibrary.included [] [.ofPath "main.asm"]
      (["main.asm", "walk.asm", "size.asm", "main.asm", "turn.asm"].map SourceId.ofPath) :=
    .enter (by decide) within .done
  obtain ⟨q, up, converses, _, library, _, unique, asked, _⟩ :=
    asks_for_what_is_included ⟨.ofPath "main.asm", 0⟩ [] distinct
  refine ⟨distinct, q, ended.1 ▸ converses, ?_, by rw [library, ended.2]⟩
  rw [asked, ← unique _ order]
  decide

end Job

end RobotArena
