import RobotArena.Compilation.NodeGraph

/-!
# Directed graphs of sources

A source gets a node when an edge needs one, an index tells which, and a node to which and from which
no edge leads is dropped. Whatever is done to the graph, the index and the nodes agree.
-/

namespace RobotArena

/-- A graph of sources, with the node of each source in it. -/
structure SourceGraph extends NodeGraph where
  index : List (SourceId × Nat) := []
  deriving DecidableEq, Repr

namespace SourceGraph

/-- The node of a source. -/
def node? (g : SourceGraph) (source : SourceId) : Option Nat :=
  (g.index.find? (·.1 = source)).map (·.2)

/-- Sees to it that a source has a node, and answers it. -/
def node (g : SourceGraph) (source : SourceId) : Nat × SourceGraph :=
  match g.node? source with
  | some n => (n, g)
  | none =>
    (g.freeNumber, ⟨g.addNode source, (source, g.freeNumber) :: g.index⟩)

/-- Forgets what a source depends on. Answers the nodes that it depended on. -/
def cut (g : SourceGraph) (source : SourceId) : List Nat × SourceGraph :=
  match g.node? source with
  | some n => (g.targets n, ⟨g.clear n, g.index⟩)
  | none => ([], g)

/-- Notes that a source at a node depends on another one. -/
def link (source : SourceId) (origin : Nat) (g : SourceGraph) (dependency : SourceId) :
    SourceGraph :=
  if dependency = source then g
  else
    let (target, g) := g.node dependency
    if g.edges.contains (origin, target) then g
    else ⟨g.addEdge origin target, g.index⟩

/-- Notes that a source depends on some others. -/
def linkAll (g : SourceGraph) (source : SourceId) (dependencies : List SourceId) : SourceGraph :=
  if dependencies.isEmpty then g
  else
    let (origin, g) := g.node source
    dependencies.foldl (link source origin) g

/-- Drops a node to which and from which no edge leads. -/
def prune (g : SourceGraph) (n : Nat) : SourceGraph :=
  match g.source? n with
  | none => g
  | some source =>
    if (g.origins n).isEmpty && (g.targets n).isEmpty then
      ⟨g.removeNode n, g.index.filter (·.1 ≠ source)⟩
    else g

/-- Drops the node of a source if no edge leads to it or from it. -/
def pruneSource (g : SourceGraph) (source : SourceId) : SourceGraph :=
  match g.node? source with
  | some n => g.prune n
  | none => g

/-- Replaces what a source depends on. -/
def replace (g : SourceGraph) (source : SourceId) (dependencies : List SourceId) : SourceGraph :=
  let (previous, g) := g.cut source
  (previous.foldl prune (g.linkAll source dependencies)).pruneSource source

/-- What a source depends on directly, the newest first. -/
def dependencies (g : SourceGraph) (source : SourceId) : List SourceId :=
  match g.node? source with
  | some n => (g.targets n).filterMap g.source?
  | none => []

/-- The index and the nodes agree, edges lead from nodes to other nodes, and each is there once. -/
structure Sound (g : SourceGraph) : Prop where
  indexed : ∀ source n, g.node? source = some n ↔ g.source? n = some source
  live : ∀ e ∈ g.edges, (g.source? e.1).isSome ∧ (g.source? e.2).isSome
  simple : g.edges.Nodup
  loopless : ∀ e ∈ g.edges, e.1 ≠ e.2

variable {g g' : SourceGraph} {source t u : SourceId} {n m : Nat}

theorem Sound.empty : Sound {} :=
  ⟨fun _ _ => ⟨nofun, nofun⟩, nofun, List.nodup_nil, nofun⟩

/-- Two nodes never hold the same source. -/
theorem Sound.unique (h : g.Sound) (first : g.source? n = some source)
    (second : g.source? m = some source) : n = m := by
  have found := (h.indexed source n).mpr first
  rw [(h.indexed source m).mpr second] at found
  exact (Option.some.inj found).symm

theorem mem_dependencies (h : g.Sound) :
    u ∈ g.dependencies t ↔
      ∃ e ∈ g.edges, g.source? e.1 = some t ∧ g.source? e.2 = some u := by
  unfold dependencies
  cases found : g.node? t with
  | none =>
    refine ⟨nofun, ?_⟩
    rintro ⟨e, _, first, _⟩
    rw [(h.indexed t e.1).mpr first] at found
    cases found
  | some n =>
    rw [List.mem_filterMap]
    constructor
    · rintro ⟨m, target, last⟩
      exact ⟨(n, m), NodeGraph.mem_targets.mp target, (h.indexed t n).mp found, last⟩
    · rintro ⟨e, member, first, last⟩
      have same : n = e.1 := h.unique ((h.indexed t n).mp found) first
      exact ⟨e.2, NodeGraph.mem_targets.mpr (same ▸ member), last⟩

/-- What a source depends on is told by its node, the edges from there, and the sources at the
nodes that they lead to. -/
theorem dependencies_congr (node : g'.node? t = g.node? t)
    (targets : ∀ n, g.node? t = some n → g'.targets n = g.targets n)
    (sources : ∀ e ∈ g.edges, g'.source? e.2 = g.source? e.2) :
    g'.dependencies t = g.dependencies t := by
  unfold dependencies
  rw [node]
  cases found : g.node? t with
  | none => rfl
  | some n =>
    dsimp only
    rw [targets n found]
    have same : (g.targets n).map g'.source? = (g.targets n).map g.source? :=
      List.map_congr_left fun m member => sources (n, m) (NodeGraph.mem_targets.mp member)
    have found := congrArg (List.filterMap id) same
    rw [List.filterMap_map, List.filterMap_map] at found
    exact found

/-! ### Adding a node -/

theorem node_eq (found : g.node? source = some n) : g.node source = (n, g) := by
  simp [node, found]

theorem node_new (absent : g.node? source = none) :
    g.node source =
      (g.freeNumber, ⟨g.addNode source, (source, g.freeNumber) :: g.index⟩) := by
  simp [node, absent]

theorem edges_node (g : SourceGraph) (source : SourceId) : (g.node source).2.edges = g.edges := by
  unfold node
  split <;> rfl

theorem node?_node (g : SourceGraph) (source t : SourceId) :
    (g.node source).2.node? t = if t = source then some (g.node source).1 else g.node? t := by
  cases found : g.node? source with
  | some n =>
    rw [node_eq found]
    split
    · rename_i same
      rw [same, found]
    · rfl
  | none =>
    rw [node_new found]
    unfold node?
    rw [List.find?_cons]
    by_cases same : t = source
    · simp [same]
    · simp [same, Ne.symm same]

/-- Nodes keep their sources, and only the node that is answered may be new. -/
theorem source?_node (h : g.Sound) (source : SourceId) (m : Nat) :
    (g.node source).2.source? m =
      if m = (g.node source).1 then some source else g.source? m := by
  cases found : g.node? source with
  | some n =>
    rw [node_eq found]
    split
    · rename_i same
      rw [same]
      exact (h.indexed source n).mp found
    · rfl
  | none =>
    rw [node_new found]
    exact NodeGraph.source?_addNode _ source m

theorem source?_node_of_some (h : g.Sound) (source : SourceId) (there : g.source? m = some t) :
    (g.node source).2.source? m = some t := by
  rw [source?_node h]
  split
  · rename_i same
    cases found : g.node? source with
    | some n =>
      rw [same, node_eq found, (h.indexed source n).mp found] at there
      exact there
    | none =>
      rw [same, node_new found, g.source?_freeNumber] at there
      cases there
  · exact there

theorem Sound.node (h : g.Sound) (source : SourceId) : (g.node source).2.Sound where
  indexed t m := by
    rw [node?_node, source?_node h]
    by_cases named : t = source
    · rw [if_pos named]
      constructor
      · intro same
        rw [if_pos (Option.some.inj same).symm, named]
      · intro there
        split at there
        · rename_i same
          rw [same]
        · rename_i other
          -- the source was at a node before, so this one was answered
          have found := (h.indexed t m).mpr there
          rw [named] at found
          exact absurd (congrArg Prod.fst (node_eq found)).symm other
    · rw [if_neg named, h.indexed]
      split
      · rename_i same
        refine ⟨fun there => ?_, fun there => absurd (Option.some.inj there).symm named⟩
        have kept := source?_node_of_some h source there
        rw [source?_node h, if_pos same] at kept
        exact kept
      · rfl
  live e member := by
    rw [edges_node] at member
    obtain ⟨first, last⟩ := h.live e member
    obtain ⟨a, first⟩ := Option.isSome_iff_exists.mp first
    obtain ⟨b, last⟩ := Option.isSome_iff_exists.mp last
    rw [source?_node_of_some h source first, source?_node_of_some h source last]
    exact ⟨rfl, rfl⟩
  simple := by
    rw [edges_node]
    exact h.simple
  loopless := by
    rw [edges_node]
    exact h.loopless

theorem dependencies_node (h : g.Sound) (source t : SourceId) :
    (g.node source).2.dependencies t = g.dependencies t := by
  cases found : g.node? source with
  | some n => rw [node_eq found]
  | none =>
    by_cases same : t = source
    · -- no edge leads from the new node
      have none : g.dependencies t = [] := by
        rw [same, dependencies, found]
      have free : (g.node source).2.dependencies t = [] := by
        refine List.eq_nil_iff_forall_not_mem.mpr fun u member => ?_
        obtain ⟨e, edge, first, _⟩ := (mem_dependencies (h.node source)).mp member
        rw [edges_node] at edge
        obtain ⟨a, before⟩ := Option.isSome_iff_exists.mp (h.live e edge).1
        rw [source?_node_of_some h source before, same] at first
        rw [Option.some.inj first, ← h.indexed, found] at before
        cases before
      rw [none, free]
    · refine dependencies_congr ?_ (fun n _ => ?_) fun e member => ?_
      · rw [node?_node, if_neg same]
      · rw [NodeGraph.targets, edges_node]
        rfl
      · obtain ⟨b, last⟩ := Option.isSome_iff_exists.mp (h.live e member).2
        rw [last, source?_node_of_some h source last]

/-! ### Adding an edge -/

/-- Noting a dependency adds at most one edge, to a node that is there by then. -/
theorem link_cases (g : SourceGraph) (source : SourceId) (n : Nat) (dependency : SourceId) :
    (dependency = source ∧ link source n g dependency = g) ∨
    (dependency ≠ source ∧ (n, (g.node dependency).1) ∈ g.edges ∧
      link source n g dependency = (g.node dependency).2) ∨
    (dependency ≠ source ∧ (n, (g.node dependency).1) ∉ g.edges ∧
      link source n g dependency =
        ⟨(g.node dependency).2.addEdge n (g.node dependency).1, (g.node dependency).2.index⟩) := by
  have edges := g.edges_node dependency
  by_cases own : dependency = source
  · exact .inl ⟨own, if_pos own⟩
  · refine .inr ?_
    unfold link
    rw [if_neg own]
    dsimp only
    rw [edges]
    by_cases there : (n, (g.node dependency).1) ∈ g.edges
    · exact .inl ⟨own, there, if_pos (List.contains_iff_mem.mpr there)⟩
    · exact .inr ⟨own, there, if_neg (mt List.contains_iff_mem.mp there)⟩

theorem source?_link (h : g.Sound) (n : Nat) (dependency : SourceId) (there : g.source? m = some t) :
    (link source n g dependency).source? m = some t := by
  rcases g.link_cases source n dependency with ⟨_, same⟩ | ⟨_, _, same⟩ | ⟨_, _, same⟩
  · rw [same]
    exact there
  · rw [same]
    exact source?_node_of_some h dependency there
  · rw [same]
    exact source?_node_of_some h dependency there

theorem source?_node_self (h : g.Sound) (source : SourceId) :
    (g.node source).2.source? (g.node source).1 = some source := by
  rw [source?_node h, if_pos rfl]

theorem Sound.link (h : g.Sound) (origin : g.source? n = some source) (dependency : SourceId) :
    (link source n g dependency).Sound := by
  have sound := h.node dependency
  rcases g.link_cases source n dependency with ⟨_, same⟩ | ⟨_, _, same⟩ | ⟨other, new, same⟩
  · rw [same]
    exact h
  · rw [same]
    exact sound
  · have first := source?_node_of_some h dependency origin
    have last := source?_node_self h dependency
    rw [same]
    refine ⟨sound.indexed, ?_, ?_, ?_⟩
    · intro e member
      rcases List.mem_cons.mp member with rfl | old
      · exact ⟨Option.isSome_of_eq_some first, Option.isSome_of_eq_some last⟩
      · exact sound.live e old
    · refine List.nodup_cons.mpr ⟨?_, sound.simple⟩
      rw [edges_node]
      exact new
    · intro e member
      rcases List.mem_cons.mp member with rfl | old
      · intro loop
        -- then both sources would be at one node
        have loop : n = (g.node dependency).1 := loop
        rw [loop, last] at first
        exact other (Option.some.inj first)
      · exact sound.loopless e old

theorem mem_dependencies_link (h : g.Sound) (origin : g.source? n = some source)
    (dependency : SourceId) :
    u ∈ (link source n g dependency).dependencies source ↔
      u ∈ g.dependencies source ∨ (u = dependency ∧ u ≠ source) := by
  have before := dependencies_node h dependency source
  have last := source?_node_self h dependency
  have first := source?_node_of_some h dependency origin
  rcases g.link_cases source n dependency with ⟨own, same⟩ | ⟨other, there, same⟩ | ⟨other, _, same⟩
  · rw [same, own]
    exact ⟨.inl, fun either => either.elim id fun both => absurd both.1 both.2⟩
  · rw [same, before]
    refine ⟨.inl, fun either => either.elim id ?_⟩
    rintro ⟨rfl, _⟩
    rw [← before, mem_dependencies (h.node u)]
    refine ⟨(n, (g.node u).1), ?_, first, last⟩
    rw [edges_node]
    exact there
  · have sound := h.link origin dependency
    rw [mem_dependencies sound, ← before, mem_dependencies (h.node dependency), same]
    constructor
    · rintro ⟨e, member, from', at'⟩
      rcases List.mem_cons.mp member with rfl | old
      · have named : u = dependency := Option.some.inj (at'.symm.trans last)
        exact .inr ⟨named, named ▸ other⟩
      · exact .inl ⟨e, old, from', at'⟩
    · rintro (⟨e, old, from', at'⟩ | ⟨rfl, _⟩)
      · exact ⟨e, List.mem_cons_of_mem _ old, from', at'⟩
      · exact ⟨_, List.mem_cons_self, first, last⟩

theorem dependencies_link_other (h : g.Sound) (origin : g.source? n = some source)
    (dependency : SourceId) (other : t ≠ source) :
    (link source n g dependency).dependencies t = g.dependencies t := by
  have before := dependencies_node h dependency t
  rcases g.link_cases source n dependency with ⟨_, same⟩ | ⟨_, _, same⟩ | ⟨_, _, same⟩
  · rw [same]
  · rw [same, before]
  · rw [same, ← before]
    refine dependencies_congr rfl (fun m found => ?_) fun _ _ => rfl
    have elsewhere : n ≠ m := by
      intro here
      have there := ((h.node dependency).indexed t m).mp found
      rw [← here, source?_node_of_some h dependency origin] at there
      exact other (Option.some.inj there).symm
    show (List.filter _ ((n, _) :: _)).map _ = _
    rw [List.filter_cons_of_neg (by simpa using elsewhere)]
    rfl

/-! ### Removing edges and nodes -/

theorem source?_cut (g : SourceGraph) (source : SourceId) (m : Nat) :
    (g.cut source).2.source? m = g.source? m := by
  unfold cut
  split <;> rfl

theorem node?_cut (g : SourceGraph) (source t : SourceId) :
    (g.cut source).2.node? t = g.node? t := by
  unfold cut
  split <;> rfl

theorem edges_cut_sublist (g : SourceGraph) (source : SourceId) :
    (g.cut source).2.edges.Sublist g.edges := by
  unfold cut
  split
  · exact List.filter_sublist
  · exact .refl _

theorem Sound.cut (h : g.Sound) (source : SourceId) : (g.cut source).2.Sound where
  indexed t m := by
    rw [node?_cut, source?_cut]
    exact h.indexed t m
  live e member := by
    rw [source?_cut, source?_cut]
    exact h.live e ((g.edges_cut_sublist source).subset member)
  simple := h.simple.sublist (g.edges_cut_sublist source)
  loopless e member := h.loopless e ((g.edges_cut_sublist source).subset member)

theorem cut_none (absent : g.node? source = none) : g.cut source = ([], g) := by
  simp [cut, absent]

theorem cut_some (found : g.node? source = some n) :
    g.cut source = (g.targets n, ⟨g.clear n, g.index⟩) := by
  simp [cut, found]

theorem dependencies_cut_self (g : SourceGraph) (source : SourceId) :
    (g.cut source).2.dependencies source = [] := by
  cases found : g.node? source with
  | none => rw [cut_none found, dependencies, found]
  | some n =>
    rw [cut_some found, dependencies]
    change (match g.node? source with
      | some n' => ((g.clear n).targets n').filterMap _
      | none => []) = []
    rw [found]
    dsimp only
    rw [NodeGraph.targets_clear_self]
    rfl

theorem dependencies_cut_other (h : g.Sound) (other : t ≠ source) :
    (g.cut source).2.dependencies t = g.dependencies t := by
  cases found : g.node? source with
  | none => rw [cut_none found]
  | some n =>
    rw [cut_some found]
    refine dependencies_congr rfl (fun m there => ?_) fun _ _ => rfl
    refine NodeGraph.targets_clear_other fun same => other ?_
    have named := (h.indexed t m).mp there
    rw [same, (h.indexed source n).mp found] at named
    exact (Option.some.inj named).symm

theorem joined_cut (h : g.Sound) (source : SourceId) (joined : g.Joined m) :
    (g.cut source).2.Joined m ∨ m ∈ (g.cut source).1 ∨ g.source? m = some source := by
  cases found : g.node? source with
  | none =>
    rw [cut_none found]
    exact .inl joined
  | some n =>
    rw [cut_some found]
    obtain ⟨e, member, touches⟩ := joined
    by_cases own : e.1 = n
    · rcases touches with first | last
      · right; right
        rw [← first, own]
        exact (h.indexed source n).mp found
      · right; left
        rw [← last, NodeGraph.mem_targets, ← own]
        exact member
    · exact .inl ⟨e, List.mem_filter.mpr ⟨member, by simpa using own⟩, touches⟩

/-- A node is dropped exactly if it is there and not joined. -/
theorem prune_cases (g : SourceGraph) (n : Nat) :
    (g.prune n = g ∧ ((g.source? n).isSome → g.Joined n)) ∨
    (¬g.Joined n ∧ ∃ source, g.source? n = some source ∧
      g.prune n = ⟨g.removeNode n, g.index.filter (·.1 ≠ source)⟩) := by
  have alone : ((g.origins n).isEmpty && (g.targets n).isEmpty) = true ↔ ¬g.Joined n := by
    rw [Bool.and_eq_true, List.isEmpty_iff, List.isEmpty_iff, List.eq_nil_iff_forall_not_mem,
      List.eq_nil_iff_forall_not_mem]
    constructor
    · rintro ⟨origins, targets⟩ ⟨e, member, rfl | rfl⟩
      · exact targets e.2 (NodeGraph.mem_targets.mpr member)
      · exact origins e.1 (NodeGraph.mem_origins.mpr member)
    · intro none
      exact ⟨fun a edge => none ⟨_, NodeGraph.mem_origins.mp edge, .inr rfl⟩,
        fun b edge => none ⟨_, NodeGraph.mem_targets.mp edge, .inl rfl⟩⟩
  cases found : g.source? n with
  | none => exact .inl ⟨by simp [prune, found], nofun⟩
  | some source =>
    by_cases joined : g.Joined n
    · refine .inl ⟨?_, fun _ => joined⟩
      simp only [prune, found]
      exact if_neg (mt alone.mp (not_not_intro joined))
    · refine .inr ⟨joined, source, rfl, ?_⟩
      simp only [prune, found]
      exact if_pos (alone.mpr joined)

theorem edges_prune (g : SourceGraph) (n : Nat) : (g.prune n).edges = g.edges := by
  rcases g.prune_cases n with ⟨same, _⟩ | ⟨alone, _, _, pruned⟩
  · rw [same]
  · rw [pruned]
    exact NodeGraph.edges_removeNode alone

theorem joined_prune {n m : Nat} : (g.prune n).Joined m ↔ g.Joined m := by
  unfold NodeGraph.Joined
  rw [edges_prune]

theorem source?_prune (g : SourceGraph) (n m : Nat) :
    (g.prune n).source? m = if m = n ∧ ¬g.Joined n then none else g.source? m := by
  rcases g.prune_cases n with ⟨same, joined⟩ | ⟨alone, source, found, pruned⟩
  · rw [same]
    split
    · rename_i here
      refine Option.not_isSome_iff_eq_none.mp fun there => ?_
      exact here.2 (joined (here.1 ▸ there))
    · rfl
  · rw [pruned, g.source?_removeNode n m]
    simp [alone]

theorem node?_prune (h : g.Sound) (n : Nat) (t : SourceId) :
    (g.prune n).node? t = if g.node? t = some n ∧ ¬g.Joined n then none else g.node? t := by
  rcases g.prune_cases n with ⟨same, joined⟩ | ⟨alone, source, found, pruned⟩
  · rw [same]
    split
    · rename_i here
      have there := (h.indexed t n).mp here.1
      exact absurd (joined (Option.isSome_of_eq_some there)) here.2
    · rfl
  · have dropped := NodeGraph.find?_filter_key g.index source t
    have named : g.node? t = some n ↔ t = source := by
      rw [h.indexed, found]
      exact ⟨fun same => (Option.some.inj same).symm, fun same => by rw [same]⟩
    rw [pruned]
    unfold node? at named ⊢
    rw [dropped]
    simp only [named, alone, not_false_eq_true, and_true]
    split <;> rfl

theorem Sound.prune (h : g.Sound) (n : Nat) : (g.prune n).Sound where
  indexed t m := by
    rw [node?_prune h, source?_prune]
    have agree := h.indexed t
    by_cases alone : g.Joined n
    · simp only [alone, not_true_eq_false, and_false, if_false]
      exact agree m
    · simp only [alone, not_false_eq_true, and_true]
      split
      · rename_i here
        refine ⟨nofun, fun there => ?_⟩
        split at there
        · cases there
        · rename_i other
          have same : n = m := h.unique ((agree n).mp here) there
          exact absurd same.symm other
      · rename_i other
        split
        · rename_i same
          refine ⟨fun there => absurd (same ▸ there) other, nofun⟩
        · exact agree m
  live e member := by
    rw [edges_prune] at member
    rw [source?_prune, source?_prune, if_neg, if_neg]
    · exact h.live e member
    · exact fun here => here.2 ⟨e, member, .inr here.1⟩
    · exact fun here => here.2 ⟨e, member, .inl here.1⟩
  simple := by
    rw [edges_prune]
    exact h.simple
  loopless := by
    rw [edges_prune]
    exact h.loopless

theorem dependencies_prune (h : g.Sound) (n : Nat) (t : SourceId) :
    (g.prune n).dependencies t = g.dependencies t := by
  by_cases pruned : g.node? t = some n ∧ ¬g.Joined n
  · have none : g.targets n = [] := by
      refine List.eq_nil_iff_forall_not_mem.mpr fun m edge => ?_
      exact pruned.2 ⟨_, NodeGraph.mem_targets.mp edge, .inl rfl⟩
    unfold dependencies
    rw [node?_prune h, if_pos pruned, pruned.1]
    dsimp only
    rw [none]
    rfl
  · refine dependencies_congr ?_ (fun m _ => ?_) fun e member => ?_
    · rw [node?_prune h, if_neg pruned]
    · rw [NodeGraph.targets, edges_prune]
      rfl
    · rw [source?_prune, if_neg]
      exact fun here => here.2 ⟨e, member, .inr here.1⟩

theorem dependencies_pruneSource (h : g.Sound) (source t : SourceId) :
    (g.pruneSource source).dependencies t = g.dependencies t := by
  unfold pruneSource
  split
  · exact dependencies_prune h _ t
  · rfl

theorem Sound.pruneSource (h : g.Sound) (source : SourceId) : (g.pruneSource source).Sound := by
  unfold SourceGraph.pruneSource
  split
  · exact h.prune _
  · exact h

theorem Sound.pruneAll {g : SourceGraph} (h : g.Sound) (nodes : List Nat) :
    (nodes.foldl SourceGraph.prune g).Sound := by
  induction nodes generalizing g with
  | nil => exact h
  | cons n rest ih => exact ih (h.prune n)

theorem dependencies_pruneAll {g : SourceGraph} (h : g.Sound) (nodes : List Nat) (t : SourceId) :
    (nodes.foldl prune g).dependencies t = g.dependencies t := by
  induction nodes generalizing g with
  | nil => rfl
  | cons n rest ih => exact (ih (h.prune n)).trans (dependencies_prune h n t)

/-! ### Adding several edges -/

/-- What noting the dependencies of a source one by one rests on. -/
structure At (source : SourceId) (n : Nat) (g : SourceGraph) : Prop where
  sound : g.Sound
  origin : g.source? n = some source

theorem At.link (h : At source n g) (dependency : SourceId) :
    At source n (link source n g dependency) :=
  ⟨h.sound.link h.origin dependency, source?_link h.sound n dependency h.origin⟩

theorem At.linkEach {g : SourceGraph} (h : At source n g) (ds : List SourceId) :
    At source n (ds.foldl (SourceGraph.link source n) g) := by
  induction ds generalizing g with
  | nil => exact h
  | cons d rest ih => exact ih (h.link d)

theorem dependencies_linkEach_other {g : SourceGraph} (h : At source n g) (ds : List SourceId)
    (other : t ≠ source) :
    (ds.foldl (link source n) g).dependencies t = g.dependencies t := by
  induction ds generalizing g with
  | nil => rfl
  | cons d rest ih =>
    exact (ih (h.link d)).trans (dependencies_link_other h.sound h.origin d other)

theorem mem_dependencies_linkEach {g : SourceGraph} (h : At source n g) (ds : List SourceId) :
    u ∈ (ds.foldl (link source n) g).dependencies source ↔
      u ∈ g.dependencies source ∨ (u ∈ ds ∧ u ≠ source) := by
  induction ds generalizing g with
  | nil => simp
  | cons d rest ih =>
    rw [List.foldl_cons, ih (h.link d), mem_dependencies_link h.sound h.origin, List.mem_cons,
      or_assoc, ← or_and_right]

theorem Sound.linkAll (h : g.Sound) (source : SourceId) (ds : List SourceId) :
    (g.linkAll source ds).Sound := by
  unfold SourceGraph.linkAll
  split
  · exact h
  · exact (At.linkEach ⟨h.node source, source?_node_self h source⟩ ds).sound

theorem dependencies_linkAll_other (h : g.Sound) (ds : List SourceId) (other : t ≠ source) :
    (g.linkAll source ds).dependencies t = g.dependencies t := by
  unfold linkAll
  split
  · rfl
  · exact (dependencies_linkEach_other ⟨h.node source, source?_node_self h source⟩ ds other).trans
      (dependencies_node h source t)

theorem mem_dependencies_linkAll (h : g.Sound) (ds : List SourceId) :
    u ∈ (g.linkAll source ds).dependencies source ↔
      u ∈ g.dependencies source ∨ (u ∈ ds ∧ u ≠ source) := by
  unfold linkAll
  split
  · rename_i none
    rw [List.isEmpty_iff.mp none]
    simp
  · have linked := mem_dependencies_linkEach (u := u) ⟨h.node source, source?_node_self h source⟩ ds
    rw [dependencies_node h] at linked
    exact linked

/-! ### Nodes without edges -/

/-- Every node is joined, except for those of a list and that of a source. -/
def Slack (g : SourceGraph) (nodes : List Nat) (source : SourceId) : Prop :=
  ∀ m t, g.source? m = some t → g.Joined m ∨ m ∈ nodes ∨ t = source

/-- Every node is joined. -/
def Tight (g : SourceGraph) : Prop :=
  ∀ n t, g.source? n = some t → g.Joined n

theorem Tight.empty : Tight {} :=
  nofun

theorem Tight.cut (tight : g.Tight) (h : g.Sound) (source : SourceId) :
    (g.cut source).2.Slack (g.cut source).1 source := by
  intro m t there
  rw [source?_cut] at there
  rcases joined_cut h source (tight m t there) with joined | target | own
  · exact .inl joined
  · exact .inr (.inl target)
  · exact .inr (.inr (Option.some.inj (there.symm.trans own)))

theorem joined_link (n : Nat) (dependency : SourceId) (joined : g.Joined m) :
    (link source n g dependency).Joined m := by
  obtain ⟨e, member, touches⟩ := joined
  have kept : e ∈ (g.node dependency).2.edges := by
    rw [edges_node]
    exact member
  rcases g.link_cases source n dependency with ⟨_, same⟩ | ⟨_, _, same⟩ | ⟨_, _, same⟩
  · rw [same]
    exact ⟨e, member, touches⟩
  · rw [same]
    exact ⟨e, kept, touches⟩
  · rw [same]
    exact ⟨e, List.mem_cons_of_mem _ kept, touches⟩

/-- A node for a dependency is joined to the node of the source at once. -/
theorem Slack.link {nodes : List Nat} (slack : g.Slack nodes source) (h : At source n g)
    (dependency : SourceId) : (SourceGraph.link source n g dependency).Slack nodes source := by
  intro m t there
  have before (there : g.source? m = some t) :
      (SourceGraph.link source n g dependency).Joined m ∨ m ∈ nodes ∨ t = source :=
    (slack m t there).imp_left (joined_link n dependency)
  have named := source?_node h.sound dependency m
  rcases g.link_cases source n dependency with ⟨_, same⟩ | ⟨_, edge, same⟩ | ⟨_, _, same⟩
  · exact before (same ▸ there)
  · by_cases target : m = (g.node dependency).1
    · refine .inl ⟨(n, (g.node dependency).1), ?_, .inr target.symm⟩
      rw [same, edges_node]
      exact edge
    · rw [if_neg target] at named
      rw [same, named] at there
      exact before there
  · by_cases target : m = (g.node dependency).1
    · refine .inl ⟨(n, (g.node dependency).1), ?_, .inr target.symm⟩
      rw [same]
      exact List.mem_cons_self
    · rw [if_neg target] at named
      rw [same] at there
      exact before (named.symm.trans there)

theorem Slack.linkEach {g : SourceGraph} {nodes : List Nat} (slack : g.Slack nodes source)
    (h : At source n g) (ds : List SourceId) :
    (ds.foldl (SourceGraph.link source n) g).Slack nodes source := by
  induction ds generalizing g with
  | nil => exact slack
  | cons d rest ih => exact ih (slack.link h d) (h.link d)

theorem Slack.linkAll {nodes : List Nat} (slack : g.Slack nodes source) (h : g.Sound)
    (ds : List SourceId) : (g.linkAll source ds).Slack nodes source := by
  unfold SourceGraph.linkAll
  split
  · exact slack
  · refine Slack.linkEach (fun m t there => ?_) ⟨h.node source, source?_node_self h source⟩ ds
    rw [source?_node h] at there
    split at there
    · exact .inr (.inr (Option.some.inj there).symm)
    · refine (slack m t there).imp_left fun ⟨e, member, touches⟩ => ⟨e, ?_, touches⟩
      rw [edges_node]
      exact member

theorem Slack.prune {nodes : List Nat} (slack : g.Slack (n :: nodes) source) :
    (g.prune n).Slack nodes source := by
  intro m t there
  rw [source?_prune] at there
  rw [joined_prune]
  by_cases alone : m = n ∧ ¬g.Joined n
  · rw [if_pos alone] at there
    cases there
  · rw [if_neg alone] at there
    rcases slack m t there with joined | target | own
    · exact .inl joined
    · rcases List.mem_cons.mp target with same | later
      · -- the node would have been dropped
        refine .inl (Decidable.byContradiction fun apart => alone ⟨same, same ▸ apart⟩)
      · exact .inr (.inl later)
    · exact .inr (.inr own)

theorem Slack.pruneAll {g : SourceGraph} {nodes : List Nat} (slack : g.Slack nodes source) :
    (nodes.foldl SourceGraph.prune g).Slack [] source := by
  induction nodes generalizing g with
  | nil => exact slack
  | cons n rest ih => exact ih slack.prune

theorem Slack.pruneSource (slack : g.Slack [] source) (h : g.Sound) :
    (g.pruneSource source).Tight := by
  intro m t there
  unfold SourceGraph.pruneSource at there ⊢
  split at there
  · rename_i n found
    rw [source?_prune] at there
    rw [joined_prune]
    by_cases alone : m = n ∧ ¬g.Joined n
    · rw [if_pos alone] at there
      cases there
    · rw [if_neg alone] at there
      rcases slack m t there with joined | target | own
      · exact joined
      · cases target
      · have same : m = n := h.unique there (own ▸ (h.indexed source n).mp found)
        exact Decidable.byContradiction fun apart => alone ⟨same, same ▸ apart⟩
  · rename_i absent
    rcases slack m t there with joined | target | own
    · exact joined
    · cases target
    · rw [own, ← h.indexed, absent] at there
      cases there

/-! ### Replacing what a source depends on -/

theorem Sound.replace (h : g.Sound) (source : SourceId) (ds : List SourceId) :
    (g.replace source ds).Sound :=
  (((h.cut source).linkAll source ds).pruneAll _).pruneSource source

theorem Tight.replace (tight : g.Tight) (h : g.Sound) (source : SourceId) (ds : List SourceId) :
    (g.replace source ds).Tight :=
  ((tight.cut h source).linkAll (h.cut source) ds).pruneAll.pruneSource
    (((h.cut source).linkAll source ds).pruneAll _)

/-- Pruning changes no dependencies. -/
theorem dependencies_replace (h : g.Sound) (source : SourceId) (ds : List SourceId) (t : SourceId) :
    (g.replace source ds).dependencies t = ((g.cut source).2.linkAll source ds).dependencies t := by
  have linked := (h.cut source).linkAll source ds
  exact (dependencies_pruneSource (linked.pruneAll _) source t).trans
    (dependencies_pruneAll linked _ t)

theorem dependencies_replace_other (h : g.Sound) (ds : List SourceId) (other : t ≠ source) :
    (g.replace source ds).dependencies t = g.dependencies t := by
  rw [dependencies_replace h, dependencies_linkAll_other (h.cut source) ds other,
    dependencies_cut_other h other]

theorem mem_dependencies_replace (h : g.Sound) (ds : List SourceId) :
    u ∈ (g.replace source ds).dependencies source ↔ u ∈ ds ∧ u ≠ source := by
  rw [dependencies_replace h, mem_dependencies_linkAll (h.cut source), dependencies_cut_self]
  simp

end SourceGraph

end RobotArena
