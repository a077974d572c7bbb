import RobotArena.Identity

/-!
# Directed graphs with numbered nodes

Each node holds a source. At most one node has a number, and edges are looked up from both of their
ends.
-/

namespace RobotArena

/-- A directed graph whose nodes keep their numbers while they are there. The number of a node that
was removed may be given to another one. Newer edges come first. -/
structure NodeGraph where
  nodes : List (Nat × SourceId) := []
  edges : List (Nat × Nat) := []
  deriving DecidableEq, Repr

namespace NodeGraph

/-- The source at a node. -/
def source? (g : NodeGraph) (n : Nat) : Option SourceId :=
  (g.nodes.find? (·.1 = n)).map (·.2)

/-- A number greater than those of all nodes. -/
def freeNumber (g : NodeGraph) : Nat :=
  g.nodes.foldr (fun node least => max (node.1 + 1) least) 0

/-- Adds a node. -/
def addNode (g : NodeGraph) (source : SourceId) : NodeGraph :=
  { g with nodes := (g.freeNumber, source) :: g.nodes }

/-- Adds an edge. -/
def addEdge (g : NodeGraph) (a b : Nat) : NodeGraph :=
  { g with edges := (a, b) :: g.edges }

/-- The nodes that edges lead to from a node. -/
def targets (g : NodeGraph) (n : Nat) : List Nat :=
  (g.edges.filter (·.1 = n)).map (·.2)

/-- The nodes from which edges lead to a node. -/
def origins (g : NodeGraph) (n : Nat) : List Nat :=
  (g.edges.filter (·.2 = n)).map (·.1)

/-- Removes the edges that lead from a node. -/
def clear (g : NodeGraph) (n : Nat) : NodeGraph :=
  { g with edges := g.edges.filter (·.1 ≠ n) }

/-- Removes a node with all its edges. -/
def removeNode (g : NodeGraph) (n : Nat) : NodeGraph :=
  ⟨g.nodes.filter (·.1 ≠ n), g.edges.filter fun e => e.1 ≠ n && e.2 ≠ n⟩

/-- Whether an edge leads to a node or from it. -/
def Joined (g : NodeGraph) (n : Nat) : Prop :=
  ∃ e ∈ g.edges, e.1 = n ∨ e.2 = n

instance (g : NodeGraph) (n : Nat) : Decidable (g.Joined n) :=
  inferInstanceAs (Decidable (∃ e ∈ g.edges, e.1 = n ∨ e.2 = n))

theorem targets_clear_self (g : NodeGraph) (n : Nat) : (g.clear n).targets n = [] := by
  simp [targets, clear]

theorem targets_clear_other {g : NodeGraph} {n m : Nat} (other : m ≠ n) :
    (g.clear n).targets m = g.targets m := by
  unfold targets clear
  rw [List.filter_filter]
  congr 1
  refine List.filter_congr fun e _ => ?_
  by_cases here : e.1 = m <;> simp [here, other]

theorem mem_targets {g : NodeGraph} {a b : Nat} : b ∈ g.targets a ↔ (a, b) ∈ g.edges := by
  simp [targets]

theorem mem_origins {g : NodeGraph} {a b : Nat} : a ∈ g.origins b ↔ (a, b) ∈ g.edges := by
  simp [origins]

theorem lt_freeNumber {g : NodeGraph} {node : Nat × SourceId} (member : node ∈ g.nodes) :
    node.1 < g.freeNumber := by
  unfold freeNumber
  generalize g.nodes = nodes at member
  induction nodes with
  | nil => cases member
  | cons first rest ih =>
    rw [List.foldr_cons]
    rcases List.mem_cons.mp member with rfl | later
    · omega
    · have bound := ih later
      omega

theorem source?_freeNumber (g : NodeGraph) : g.source? g.freeNumber = none := by
  rw [source?, Option.map_eq_none_iff, List.find?_eq_none]
  intro node member
  have below := lt_freeNumber member
  simp
  omega

theorem source?_addNode (g : NodeGraph) (source : SourceId) (n : Nat) :
    (g.addNode source).source? n = if n = g.freeNumber then some source else g.source? n := by
  unfold addNode source?
  rw [List.find?_cons]
  by_cases new : n = g.freeNumber
  · simp [new]
  · simp [new, Ne.symm new]

/-- What is found by its key once another key is dropped. -/
theorem find?_filter_key {κ α : Type} [DecidableEq κ] (entries : List (κ × α)) (k j : κ) :
    (entries.filter (·.1 ≠ k)).find? (·.1 = j) =
      if j = k then none else entries.find? (·.1 = j) := by
  induction entries with
  | nil => simp
  | cons entry rest ih =>
    by_cases dropped : entry.1 = k
    · rw [List.filter_cons_of_neg (by simpa using dropped), ih]
      by_cases same : j = k
      · rw [if_pos same, if_pos same]
      · have other : entry.1 ≠ j := fun here => same (here.symm.trans dropped)
        rw [if_neg same, if_neg same, List.find?_cons_of_neg (by simpa using other)]
    · rw [List.filter_cons_of_pos (by simpa using dropped)]
      by_cases here : entry.1 = j
      · have kept : j ≠ k := fun same => dropped (here.trans same)
        rw [if_neg kept, List.find?_cons_of_pos (by simpa using here),
          List.find?_cons_of_pos (by simpa using here)]
      · rw [List.find?_cons_of_neg (by simpa using here),
          List.find?_cons_of_neg (by simpa using here), ih]

theorem source?_removeNode (g : NodeGraph) (n m : Nat) :
    (g.removeNode n).source? m = if m = n then none else g.source? m := by
  have found := find?_filter_key g.nodes n m
  unfold removeNode source?
  split at found
  · rename_i same
    rw [if_pos same, found]
    rfl
  · rename_i other
    rw [if_neg other, found]

theorem edges_removeNode {g : NodeGraph} {n : Nat} (alone : ¬g.Joined n) :
    (g.removeNode n).edges = g.edges := by
  refine List.filter_eq_self.mpr fun e member => ?_
  have first : e.1 ≠ n := fun same => alone ⟨e, member, .inl same⟩
  have last : e.2 ≠ n := fun same => alone ⟨e, member, .inr same⟩
  simp [first, last]

end NodeGraph

end RobotArena
