import RobotArena.Compilation.SourceGraph

/-!
# Which source includes which

The recorded dependencies. A source has a node as long as it depends on another one or another one
depends on it. A source never depends on itself directly, and each dependency is recorded once.
-/

namespace RobotArena

/-- A graph of sources without nodes that no edge joins. -/
structure DependencyGraph extends SourceGraph where
  sound : toSourceGraph.Sound := by exact SourceGraph.Sound.empty
  tight : toSourceGraph.Tight := by exact SourceGraph.Tight.empty
  deriving DecidableEq, Repr

namespace DependencyGraph

/-- Replaces what a source depends on. -/
def set (g : DependencyGraph) (source : SourceId) (dependencies : List SourceId) :
    DependencyGraph :=
  ⟨g.replace source dependencies, g.sound.replace source dependencies,
    g.tight.replace g.sound source dependencies⟩

/-- Forgets what a source depends on. -/
def remove (g : DependencyGraph) (source : SourceId) : DependencyGraph :=
  g.set source []

/-- Whether a source has a node. -/
def contains (g : DependencyGraph) (source : SourceId) : Bool :=
  (g.node? source).isSome

/-- Follows the edges backwards from the nodes in a queue; `found` holds every node met so far. Each
node enters the queue once, so fuel for one more than the number of edges is enough. Answers what is
left of the queue, and the nodes found. -/
def follow (g : DependencyGraph) : Nat → List Nat → List Nat → List Nat × List Nat
  | 0, queue, found => (queue, found)
  | _, [], found => ([], found)
  | fuel + 1, n :: queue, found =>
    let new := (g.origins n).eraseDups.filter (!found.contains ·)
    follow g fuel (queue ++ new) (found ++ new)

/-- The other sources that depend on a source, directly or through others. -/
def dependents (g : DependencyGraph) (source : SourceId) : List SourceId :=
  match g.node? source with
  | some start => (g.follow (g.edges.length + 1) [start] [start]).2.tail.filterMap g.source?
  | none => []

/-- The recorded relation: each source with those that it depends on. -/
def pairs (g : DependencyGraph) : List (SourceId × SourceId) :=
  g.edges.filterMap fun e => (g.source? e.1).bind fun a => (g.source? e.2).map (a, ·)

/-! ### What each operation does to the relation -/

theorem mem_pairs {g : DependencyGraph} {a b : SourceId} :
    (a, b) ∈ g.pairs ↔ ∃ e ∈ g.edges, g.source? e.1 = some a ∧ g.source? e.2 = some b := by
  simp [pairs, Option.bind_eq_some_iff]

theorem mem_dependencies (g : DependencyGraph) (a b : SourceId) :
    b ∈ g.dependencies a ↔ (a, b) ∈ g.pairs := by
  rw [SourceGraph.mem_dependencies g.sound, mem_pairs]

theorem dependencies_set (g : DependencyGraph) {source t : SourceId} (other : t ≠ source)
    (ds : List SourceId) : (g.set source ds).dependencies t = g.dependencies t :=
  SourceGraph.dependencies_replace_other g.sound ds other

theorem mem_dependencies_set (g : DependencyGraph) (source : SourceId) (ds : List SourceId)
    (b : SourceId) : b ∈ (g.set source ds).dependencies source ↔ b ∈ ds ∧ b ≠ source :=
  SourceGraph.mem_dependencies_replace g.sound ds

theorem mem_pairs_set (g : DependencyGraph) (source : SourceId) (ds : List SourceId)
    (a b : SourceId) :
    (a, b) ∈ (g.set source ds).pairs ↔
      if a = source then b ∈ ds ∧ b ≠ source else (a, b) ∈ g.pairs := by
  rw [← mem_dependencies, ← mem_dependencies]
  by_cases own : a = source
  · rw [if_pos own, own, mem_dependencies_set]
  · rw [if_neg own, dependencies_set g own]

theorem mem_pairs_remove (g : DependencyGraph) (source a b : SourceId) :
    (a, b) ∈ (g.remove source).pairs ↔ a ≠ source ∧ (a, b) ∈ g.pairs := by
  rw [remove, mem_pairs_set]
  by_cases own : a = source <;> simp [own]

end DependencyGraph

end RobotArena
