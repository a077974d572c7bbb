import Mathlib.Data.List.Basic
import Mathlib.Logic.Relation

/-!
# Following every branch

`Unfolds next` follows all branches of a graph in depth, and stops only at a node that it is inside
of. The main statements are that exactly what can be reached comes up, and that the nodes of a search
which enters none of them twice stand in the order in which they come up first.
-/

namespace RobotArena

open Relation

/-- What comes up when some nodes are followed one after another, each with all that comes behind it.
A node in `opened` comes up too, but is not entered again. -/
inductive Unfolds {α : Type} (next : α → List α) : List α → List α → List α → Prop
  | done {opened} : Unfolds next opened [] []
  | inside {opened node nodes later} (entered : node ∈ opened)
      (rest : Unfolds next opened nodes later) :
      Unfolds next opened (node :: nodes) (node :: later)
  | enter {opened node nodes inner later} (outside : node ∉ opened)
      (deeper : Unfolds next (node :: opened) (next node) inner)
      (rest : Unfolds next opened nodes later) :
      Unfolds next opened (node :: nodes) (node :: (inner ++ later))

namespace Unfolds

variable {α β : Type} {next : α → List α} {opened nodes more up later : List α}

theorem unique (one : Unfolds next opened nodes up) (two : Unfolds next opened nodes later) :
    later = up := by
  induction one generalizing later with
  | done =>
    cases two
    rfl
  | inside entered _ ih =>
    cases two with
    | inside _ rest => rw [ih rest]
    | enter outside => exact absurd entered outside
  | enter outside _ _ deeperIh restIh =>
    cases two with
    | inside entered => exact absurd entered outside
    | enter _ deeper rest => rw [deeperIh deeper, restIh rest]

theorem subset (h : Unfolds next opened nodes up) : nodes ⊆ up := by
  induction h with
  | done => exact List.nil_subset _
  | inside _ _ ih => exact List.cons_subset_cons _ ih
  | enter _ _ _ _ ih => exact List.cons_subset_cons _ (List.subset_append_of_subset_right _ ih)

/-- What comes behind a node comes up, unless the node was open from the start. -/
theorem closed (h : Unfolds next opened nodes up) :
    ∀ node ∈ up, node ∉ opened → next node ⊆ up := by
  induction h with
  | done => exact nofun
  | inside entered _ ih =>
    intro other member outside
    rcases List.mem_cons.mp member with rfl | later
    · exact absurd entered outside
    · exact List.subset_cons_of_subset _ (ih other later outside)
  | @enter opened node nodes inner later _ deeper _ deeperIh restIh =>
    intro other member outside
    have inside : next node ⊆ node :: (inner ++ later) := by
      intro x behind
      exact List.mem_cons_of_mem _ (List.mem_append_left _ (deeper.subset behind))
    by_cases same : other = node
    · exact same ▸ inside
    · rcases List.mem_append.mp ((List.mem_cons.mp member).resolve_left same) with here | there
      · have closed := deeperIh other here (by simp [same, outside])
        intro x behind
        exact List.mem_cons_of_mem _ (List.mem_append_left _ (closed behind))
      · intro x behind
        exact List.mem_cons_of_mem _ (List.mem_append_right _ (restIh other there outside behind))

/-- Nodes that lead to each other only, open ones apart, lead to nothing else. -/
theorem subset_of_closed (h : Unfolds next opened nodes up) {known : List α} (start : nodes ⊆ known)
    (closed : ∀ node ∈ known, node ∉ opened → next node ⊆ known) : up ⊆ known := by
  induction h with
  | done => exact List.nil_subset _
  | inside _ _ ih =>
    obtain ⟨first, rest⟩ := List.cons_subset.mp start
    exact List.cons_subset.mpr ⟨first, ih rest closed⟩
  | enter outside _ _ deeperIh restIh =>
    obtain ⟨first, rest⟩ := List.cons_subset.mp start
    refine List.cons_subset.mpr ⟨first, List.append_subset.mpr ⟨?_, restIh rest closed⟩⟩
    exact deeperIh (closed _ first outside) fun node member further =>
      closed node member (List.not_mem_of_not_mem_cons further)

theorem reached (h : Unfolds next opened nodes up) :
    ∀ node ∈ up, ∃ start ∈ nodes, ReflTransGen (fun a b => b ∈ next a) start node := by
  induction h with
  | done => exact nofun
  | inside _ _ ih =>
    intro other member
    rcases List.mem_cons.mp member with rfl | later
    · exact ⟨other, List.mem_cons_self, .refl⟩
    · obtain ⟨start, known, steps⟩ := ih other later
      exact ⟨start, List.mem_cons_of_mem _ known, steps⟩
  | @enter opened node nodes inner later _ _ _ deeperIh restIh =>
    intro other member
    rcases List.mem_cons.mp member with rfl | further
    · exact ⟨other, List.mem_cons_self, .refl⟩
    rcases List.mem_append.mp further with here | there
    · obtain ⟨start, behind, steps⟩ := deeperIh other here
      exact ⟨node, List.mem_cons_self, .head behind steps⟩
    · obtain ⟨start, known, steps⟩ := restIh other there
      exact ⟨start, List.mem_cons_of_mem _ known, steps⟩

/-- Exactly what can be reached from a node comes up behind it. -/
theorem mem_iff {start : α} (h : Unfolds next [] [start] up) (node : α) :
    node ∈ up ↔ ReflTransGen (fun a b => b ∈ next a) start node := by
  constructor
  · intro member
    obtain ⟨first, only, steps⟩ := h.reached node member
    cases List.mem_singleton.mp only
    exact steps
  · intro steps
    induction steps with
    | refl => exact h.subset (List.mem_singleton_self _)
    | tail _ last ih => exact h.closed _ ih List.not_mem_nil last

/-- Only finitely many nodes lead anywhere, so there is an end to following them. -/
theorem exists_up [DecidableEq α] {known : List α} (finite : ∀ node, next node ≠ [] → node ∈ known)
    (opened nodes : List α) : ∃ up, Unfolds next opened nodes up := by
  induction fewer : (known.filter (· ∉ opened)).length using Nat.strongRecOn
    generalizing opened nodes with
  | _ count ih =>
  induction nodes with
  | nil => exact ⟨[], .done⟩
  | cons node nodes rest =>
    obtain ⟨later, rest⟩ := rest
    by_cases entered : node ∈ opened
    · exact ⟨_, .inside entered rest⟩
    by_cases last : next node = []
    · have deeper : Unfolds next (node :: opened) (next node) [] := by
        rw [last]
        exact .done
      exact ⟨_, .enter entered deeper rest⟩
    · -- Entering the node leaves one node less that can still be entered.
      have less : (known.filter (· ∉ node :: opened)).length < count := by
        have here : node ∈ known.filter (· ∉ opened) := by simp [finite node last, entered]
        have split : known.filter (· ∉ node :: opened) =
            (known.filter (· ∉ opened)).filter (· ≠ node) := by
          rw [List.filter_filter]
          congr 1
          funext x
          simp
        rw [split, ← fewer]
        exact List.length_filter_lt_length_iff_exists.mpr ⟨node, here, by simp⟩
      obtain ⟨inner, deeper⟩ := ih _ less (node :: opened) (next node) rfl
      exact ⟨_, .enter entered deeper rest⟩

theorem map {f : α → β} {next' : β → List β} (injective : Function.Injective f)
    (same : ∀ node, next' (f node) = (next node).map f) (h : Unfolds next opened nodes up) :
    Unfolds next' (opened.map f) (nodes.map f) (up.map f) := by
  induction h with
  | done => exact .done
  | inside entered _ ih => exact .inside (List.mem_map_of_mem entered) ih
  | enter outside _ _ deeperIh restIh =>
    rw [List.map_cons, List.map_cons, List.map_append]
    refine .enter (fun entered => outside ((List.mem_map_of_injective injective).mp entered)) ?_ restIh
    rw [same]
    exact deeperIh

end Unfolds

/-! ### The order in which nodes come up first -/

section Noted

variable {α : Type} [DecidableEq α]

/-- Some nodes and behind them those that come up, each only once. -/
def noted : List α → List α → List α
  | seen, [] => seen
  | seen, node :: up => noted (if node ∈ seen then seen else seen ++ [node]) up

theorem noted_append (seen up later : List α) :
    noted seen (up ++ later) = noted (noted seen up) later := by
  induction up generalizing seen with
  | nil => rfl
  | cons node up ih => exact ih _

theorem noted_old {seen : List α} {node : α} (old : node ∈ seen) (up : List α) :
    noted seen (node :: up) = noted seen up := by
  rw [noted, if_pos old]

theorem noted_new {seen : List α} {node : α} (new : node ∉ seen) (up : List α) :
    noted seen (node :: up) = noted (seen ++ [node]) up := by
  rw [noted, if_neg new]

theorem noted_of_subset {seen up : List α} (old : up ⊆ seen) : noted seen up = seen := by
  induction up with
  | nil => rfl
  | cons node up ih =>
    obtain ⟨first, rest⟩ := List.cons_subset.mp old
    rw [noted_old first, ih rest]

theorem noted_eq (seen up : List α) :
    noted seen up = seen ++ (up.filter (· ∉ seen)).eraseDups := by
  induction up generalizing seen with
  | nil => simp [noted]
  | cons node up ih =>
    by_cases old : node ∈ seen
    · rw [noted_old old, ih, List.filter_cons_of_neg (by simpa using old)]
    · have rest : (up.filter (· ∉ seen)).filter (fun x => !x == node) =
          up.filter (· ∉ seen ++ [node]) := by
        rw [List.filter_filter]
        congr 1
        funext x
        by_cases here : x ∈ seen <;> simp [here, beq_eq_decide]
      rw [noted_new old, ih, List.filter_cons_of_pos (by simpa using old), List.eraseDups_cons, rest,
        List.append_assoc]
      rfl

theorem noted_nil (up : List α) : noted [] up = up.eraseDups := by
  rw [noted_eq]
  simp

theorem eraseDups_map {β : Type} [DecidableEq β] {f : α → β} (injective : Function.Injective f)
    (up : List α) : (up.map f).eraseDups = up.eraseDups.map f := by
  have step : ∀ seen : List α, noted (seen.map f) (up.map f) = (noted seen up).map f := by
    induction up with
    | nil => exact fun _ => rfl
    | cons node up ih =>
      intro seen
      rw [List.map_cons]
      by_cases old : node ∈ seen
      · rw [noted_old old, noted_old (List.mem_map_of_mem old), ih]
      · have new : f node ∉ seen.map f := fun member =>
          old ((List.mem_map_of_injective injective).mp member)
        rw [noted_new old, noted_new new, ← ih, List.map_append]
        rfl
  rw [← noted_nil, ← noted_nil]
  exact step []

theorem mem_noted {seen up : List α} {node : α} : node ∈ noted seen up ↔ node ∈ seen ∨ node ∈ up := by
  rw [noted_eq, List.mem_append, List.mem_eraseDups, List.mem_filter]
  by_cases old : node ∈ seen <;> simp [old]

theorem nodup_noted {seen up : List α} (distinct : seen.Nodup) : (noted seen up).Nodup := by
  induction up generalizing seen with
  | nil => exact distinct
  | cons node up ih =>
    by_cases old : node ∈ seen
    · rw [noted_old old]
      exact ih distinct
    · rw [noted_new old]
      exact ih (List.nodup_append.mpr ⟨distinct, by simp, by
        rintro x first y second rfl
        cases List.mem_singleton.mp second
        exact old first⟩)

end Noted

end RobotArena
