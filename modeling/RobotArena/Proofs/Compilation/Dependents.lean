import Mathlib.Data.List.Nodup
import Mathlib.Logic.Relation
import RobotArena.Compilation.DependencyGraph

/-!
# The dependents of a source

Following edges backwards from the node of a source finds the sources that read it, directly or
through others, and no others. The fuel is enough because each node enters the queue once. After any
changes, the graph holds exactly the dependencies that were recorded last.
-/

namespace RobotArena.DependencyGraph

/-- A source depends on another one directly. -/
def Reads (g : DependencyGraph) (a b : SourceId) : Prop :=
  (a, b) ∈ g.pairs

/-- An edge leads from a node to another one. -/
def Leads (g : DependencyGraph) (a b : Nat) : Prop :=
  (a, b) ∈ g.edges

theorem nodup_eraseDups (nodes : List Nat) : nodes.eraseDups.Nodup := by
  cases nodes with
  | nil => exact List.nodup_nil
  | cons n rest =>
    rw [List.eraseDups_cons, List.nodup_cons, List.mem_eraseDups, List.mem_filter]
    exact ⟨by simp, nodup_eraseDups _⟩
termination_by nodes.length
decreasing_by
  have shorter := List.length_filter_le (fun b => !b == n) rest
  rw [List.length_cons]
  omega

/-! ### Following edges backwards -/

/-- What holds while edges are followed: the queue holds the nodes from which they are not followed
yet. -/
structure Search (g : DependencyGraph) (start : Nat) (queue found : List Nat) : Prop where
  nodup : found.Nodup
  first : ∃ rest, found = start :: rest
  listed : ∀ n ∈ found, n = start ∨ n ∈ g.edges.map Prod.fst
  reaches : ∀ n ∈ found, Relation.ReflTransGen g.Leads n start
  waiting : ∀ n ∈ queue, n ∈ found
  closed : ∀ n ∈ found, n ∈ queue ∨ ∀ m, g.Leads m n → m ∈ found

namespace Search

variable {g : DependencyGraph} {start n m : Nat} {queue found : List Nat}

theorem start_only (g : DependencyGraph) (start : Nat) : g.Search start [start] [start] where
  nodup := List.nodup_singleton start
  first := ⟨[], rfl⟩
  listed := by simp
  reaches := by
    intro n member
    rw [List.mem_singleton.mp member]
  waiting := fun _ member => member
  closed := fun _ member => .inl member

/-- The nodes that lead to a node and are not found yet. -/
def unseen (g : DependencyGraph) (n : Nat) (found : List Nat) : List Nat :=
  (g.origins n).eraseDups.filter (!found.contains ·)

theorem mem_unseen : m ∈ unseen g n found ↔ g.Leads m n ∧ m ∉ found := by
  rw [unseen, List.mem_filter, List.mem_eraseDups, NodeGraph.mem_origins]
  simp [Leads]

theorem step (h : g.Search start (n :: queue) found) :
    g.Search start (queue ++ unseen g n found) (found ++ unseen g n found) := by
  have here : n ∈ found := h.waiting n List.mem_cons_self
  refine ⟨?_, ?_, ?_, ?_, ?_, ?_⟩
  · apply List.nodup_append.mpr
    refine ⟨h.nodup, (nodup_eraseDups _).filter _, ?_⟩
    intro a old b new same
    exact (mem_unseen.mp new).2 (same ▸ old)
  · obtain ⟨rest, same⟩ := h.first
    exact ⟨rest ++ unseen g n found, by rw [same, List.cons_append]⟩
  · intro m member
    rcases List.mem_append.mp member with old | new
    · exact h.listed m old
    · exact .inr (List.mem_map.mpr ⟨(m, n), (mem_unseen.mp new).1, rfl⟩)
  · intro m member
    rcases List.mem_append.mp member with old | new
    · exact h.reaches m old
    · exact (h.reaches n here).head (mem_unseen.mp new).1
  · intro m member
    rcases List.mem_append.mp member with later | new
    · exact List.mem_append_left _ (h.waiting m (List.mem_cons_of_mem _ later))
    · exact List.mem_append_right _ new
  · intro m member
    rcases List.mem_append.mp member with old | new
    · rcases h.closed m old with queued | done
      · rcases List.mem_cons.mp queued with rfl | later
        · -- what leads to the node that leaves the queue is found now
          right
          intro k leads
          by_cases seen : k ∈ found
          · exact List.mem_append_left _ seen
          · exact List.mem_append_right _ (mem_unseen.mpr ⟨leads, seen⟩)
        · exact .inl (List.mem_append_left _ later)
      · exact .inr fun k leads => List.mem_append_left _ (done k leads)
    · exact .inl (List.mem_append_right _ new)

theorem length_found (h : g.Search start queue found) : found.length ≤ g.edges.length + 1 := by
  have known : found ⊆ start :: g.edges.map Prod.fst := by
    intro n member
    exact List.mem_cons.mpr (h.listed n member)
  have bound := h.nodup.length_le_of_subset known
  rwa [List.length_cons, List.length_map] at bound

/-- With fuel for every node that has not left the queue, the queue is worked off. -/
theorem follow (fuel : Nat) (h : g.Search start queue found)
    (enough : fuel + found.length = g.edges.length + 1 + queue.length) :
    (g.follow fuel queue found).1 = [] ∧ g.Search start [] (g.follow fuel queue found).2 := by
  induction fuel generalizing queue found with
  | zero =>
    -- all nodes there are have been found, so none is left in the queue
    have bound := h.length_found
    have empty : queue = [] := List.length_eq_zero_iff.mp (by omega)
    rw [empty] at h ⊢
    exact ⟨rfl, h⟩
  | succ fuel ih =>
    cases queue with
    | nil => exact ⟨rfl, h⟩
    | cons n queue =>
      refine ih h.step ?_
      rw [List.length_cons] at enough
      rw [List.length_append, List.length_append]
      omega

theorem mem_iff (h : g.Search start [] found) :
    n ∈ found ↔ Relation.ReflTransGen g.Leads n start := by
  refine ⟨h.reaches n, fun path => ?_⟩
  have closed : ∀ n ∈ found, ∀ m, g.Leads m n → m ∈ found := by
    intro n member
    rcases h.closed n member with queued | done
    · cases queued
    · exact done
  induction path using Relation.ReflTransGen.head_induction_on with
  | refl =>
    obtain ⟨rest, same⟩ := h.first
    rw [same]
    exact List.mem_cons_self
  | head leads _ ih => exact closed _ ih _ leads

end Search

/-! ### Nodes and their sources -/

variable {g : DependencyGraph} {source s t : SourceId} {n m : Nat}

theorem reads_of_leads (leads : g.Leads m n) (there : g.source? n = some s) :
    ∃ t, g.source? m = some t ∧ g.Reads t s := by
  obtain ⟨t, origin⟩ := Option.isSome_iff_exists.mp (g.sound.live (m, n) leads).1
  exact ⟨t, origin, mem_pairs.mpr ⟨(m, n), leads, origin, there⟩⟩

theorem leads_of_reads (reads : g.Reads t s) (there : g.source? n = some s) :
    ∃ m, g.source? m = some t ∧ g.Leads m n := by
  obtain ⟨e, edge, first, last⟩ := mem_pairs.mp reads
  have same : e.2 = n := g.sound.unique last there
  exact ⟨e.1, first, same ▸ edge⟩

theorem path_of_nodes (path : Relation.ReflTransGen g.Leads m n) (there : g.source? n = some s) :
    ∃ t, g.source? m = some t ∧ Relation.ReflTransGen g.Reads t s := by
  induction path using Relation.ReflTransGen.head_induction_on with
  | refl => exact ⟨s, there, .refl⟩
  | head leads _ ih =>
    obtain ⟨t, middle, chain⟩ := ih
    obtain ⟨u, first, reads⟩ := reads_of_leads leads middle
    exact ⟨u, first, chain.head reads⟩

theorem path_of_sources (path : Relation.ReflTransGen g.Reads t s) (there : g.source? n = some s) :
    ∃ m, g.source? m = some t ∧ Relation.ReflTransGen g.Leads m n := by
  induction path using Relation.ReflTransGen.head_induction_on with
  | refl => exact ⟨n, there, .refl⟩
  | head reads _ ih =>
    obtain ⟨k, middle, chain⟩ := ih
    obtain ⟨m, first, leads⟩ := leads_of_reads reads middle
    exact ⟨m, first, chain.head leads⟩

/-- A source has a node exactly if it depends on another one or another one depends on it. -/
theorem contains_iff : g.contains source = true ↔ ∃ t, g.Reads source t ∨ g.Reads t source := by
  rw [contains, Option.isSome_iff_exists]
  constructor
  · rintro ⟨n, found⟩
    have there := (g.sound.indexed source n).mp found
    obtain ⟨e, edge, rfl | rfl⟩ := g.tight n source there
    · obtain ⟨t, last⟩ := Option.isSome_iff_exists.mp (g.sound.live e edge).2
      exact ⟨t, .inl (mem_pairs.mpr ⟨e, edge, there, last⟩)⟩
    · obtain ⟨t, first⟩ := Option.isSome_iff_exists.mp (g.sound.live e edge).1
      exact ⟨t, .inr (mem_pairs.mpr ⟨e, edge, first, there⟩)⟩
  · rintro ⟨t, reads | reads⟩
    · obtain ⟨e, _, first, _⟩ := mem_pairs.mp reads
      exact ⟨e.1, (g.sound.indexed source e.1).mpr first⟩
    · obtain ⟨e, _, _, last⟩ := mem_pairs.mp reads
      exact ⟨e.2, (g.sound.indexed source e.2).mpr last⟩

theorem nodup_dependencies (g : DependencyGraph) (source : SourceId) :
    (g.dependencies source).Nodup := by
  unfold SourceGraph.dependencies
  split
  · refine List.Nodup.filterMap (fun a b t first second => g.sound.unique first second) ?_
    refine List.Nodup.map_on ?_ (g.sound.simple.filter _)
    intro a left b right same
    have left := of_decide_eq_true (List.mem_filter.mp left).2
    have right := of_decide_eq_true (List.mem_filter.mp right).2
    exact Prod.ext (left.trans right.symm) same
  · exact List.nodup_nil

/-- What is found from the node of a source: the node itself, then others, once each. -/
theorem found_from (g : DependencyGraph) (start : Nat) :
    ∃ others, g.follow (g.edges.length + 1) [start] [start] = ([], start :: others) ∧
      (start :: others).Nodup ∧
      ∀ n, n ∈ start :: others ↔ Relation.ReflTransGen g.Leads n start := by
  obtain ⟨empty, done⟩ := (Search.start_only g start).follow (g.edges.length + 1) rfl
  obtain ⟨others, same⟩ := done.first
  refine ⟨others, Prod.ext empty same, same ▸ done.nodup, fun n => ?_⟩
  rw [← same]
  exact done.mem_iff

theorem nodup_dependents (g : DependencyGraph) (source : SourceId) :
    (g.dependents source).Nodup := by
  unfold dependents
  split
  · rename_i start _
    obtain ⟨others, found, distinct, _⟩ := g.found_from start
    rw [found]
    exact (List.nodup_cons.mp distinct).2.filterMap fun a b t first second =>
      g.sound.unique first second
  · exact List.nodup_nil

/-- The dependents of a source are the other sources from which a chain of direct dependencies leads
to it. -/
theorem mem_dependents_iff :
    t ∈ g.dependents source ↔ t ≠ source ∧ Relation.TransGen g.Reads t source := by
  unfold dependents
  cases found : g.node? source with
  | none =>
    refine ⟨nofun, fun ⟨_, chain⟩ => ?_⟩
    obtain ⟨u, _, reads⟩ := Relation.TransGen.tail'_iff.mp chain
    obtain ⟨e, _, _, last⟩ := mem_pairs.mp reads
    rw [(g.sound.indexed source e.2).mpr last] at found
    cases found
  | some start =>
    have there := (g.sound.indexed source start).mp found
    obtain ⟨others, same, distinct, reached⟩ := g.found_from start
    have fresh : start ∉ others := (List.nodup_cons.mp distinct).1
    dsimp only
    rw [same, List.tail_cons, List.mem_filterMap]
    constructor
    · rintro ⟨n, member, named⟩
      have path := (reached n).mp (List.mem_cons_of_mem _ member)
      obtain ⟨u, origin, chain⟩ := path_of_nodes path there
      have own : u = t := Option.some.inj (origin.symm.trans named)
      have other : t ≠ source := by
        intro equal
        have back : n = start := g.sound.unique (equal ▸ named) there
        exact fresh (back ▸ member)
      rcases Relation.reflTransGen_iff_eq_or_transGen.mp (own ▸ chain) with equal | chain
      · exact absurd equal.symm other
      · exact ⟨other, chain⟩
    · rintro ⟨other, chain⟩
      obtain ⟨n, named, path⟩ := path_of_sources chain.to_reflTransGen there
      rcases List.mem_cons.mp ((reached n).mpr path) with equal | member
      · rw [equal, there] at named
        exact absurd (Option.some.inj named).symm other
      · exact ⟨n, member, named⟩

/-! ### What was recorded last -/

/-- A change of what is recorded. -/
inductive Change where
  | set (source : SourceId) (dependencies : List SourceId)
  | remove (source : SourceId)

/-- What a change does to the graph. -/
def Change.apply (g : DependencyGraph) : Change → DependencyGraph
  | .set source dependencies => g.set source dependencies
  | .remove source => g.remove source

/-- What a change means for the relation: the source depends on what is listed now, itself apart. -/
def Change.relate (r : SourceId → SourceId → Prop) : Change → SourceId → SourceId → Prop
  | .set source dependencies => fun a b =>
    if a = source then b ∈ dependencies ∧ b ≠ source else r a b
  | .remove source => fun a b => a ≠ source ∧ r a b

theorem reads_apply (g : DependencyGraph) (change : Change) :
    (change.apply g).Reads = change.relate g.Reads := by
  funext a b
  cases change with
  | set source ds => exact propext (g.mem_pairs_set source ds a b)
  | remove source => exact propext (g.mem_pairs_remove source a b)

theorem reads_applyAll (changes : List Change) (g : DependencyGraph) :
    (changes.foldl Change.apply g).Reads = changes.foldl Change.relate g.Reads := by
  induction changes generalizing g with
  | nil => rfl
  | cons change rest ih => rw [List.foldl_cons, List.foldl_cons, ih, reads_apply]

theorem reads_empty : (Reads {}) = fun _ _ => False := by
  funext a b
  exact eq_false List.not_mem_nil

/-- After any changes, the graph answers what the recorded relation says. -/
theorem answers_recorded_relation (changes : List Change) (source : SourceId) :
    let g := changes.foldl Change.apply {}
    let related := changes.foldl Change.relate fun _ _ => False
    ((g.dependencies source).Nodup ∧ ∀ t, t ∈ g.dependencies source ↔ related source t) ∧
      (∀ start, g.node? source = some start →
        (g.follow (g.edges.length + 1) [start] [start]).1 = []) ∧
      ((g.dependents source).Nodup ∧
        ∀ t, t ∈ g.dependents source ↔ t ≠ source ∧ Relation.TransGen related t source) ∧
      (g.contains source = true ↔ ∃ t, related source t ∨ related t source) := by
  intro g related
  have same : g.Reads = related := by
    rw [reads_applyAll, reads_empty]
  refine ⟨⟨g.nodup_dependencies source, fun t => ?_⟩, fun start _ => ?_,
    ⟨g.nodup_dependents source, fun t => ?_⟩, ?_⟩
  · rw [g.mem_dependencies, ← same]
    rfl
  · obtain ⟨others, found, _⟩ := g.found_from start
    rw [found]
  · rw [mem_dependents_iff, same]
  · rw [contains_iff, same]

end RobotArena.DependencyGraph
