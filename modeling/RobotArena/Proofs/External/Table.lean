import Mathlib.Data.List.Nodup
import RobotArena.External.Table

/-!
# Functions under their numbers and names

No two functions of a table have the same number or the same name, whatever functions are offered to
it. So a function is found under the number of its signature.
-/

namespace RobotArena.Table

variable {t : Table} {f : External}

/-- No two functions have the same number, and no two have the same name. -/
structure Distinct (t : Table) : Prop where
  ids : (t.functions.map (·.signature.id)).Nodup
  names : (t.functions.map (·.signature.name)).Nodup

theorem place_perm (f : External) (functions : List External) :
    (place f functions).Perm (f :: functions) := by
  induction functions with
  | nil => exact .refl _
  | cons g rest ih =>
    unfold place
    split
    · exact .refl _
    · exact (ih.cons g).trans (.swap f g rest)

theorem nodup_place {α : Type} {key : External → α} {functions : List External}
    (distinct : (functions.map key).Nodup) (fresh : ∀ g ∈ functions, key g ≠ key f) :
    ((place f functions).map key).Nodup := by
  refine ((place_perm f functions).map key).nodup_iff.mpr (List.nodup_cons.mpr ⟨fun member => ?_, distinct⟩)
  obtain ⟨g, known, same⟩ := List.mem_map.mp member
  exact fresh g known same

theorem foldr_place_perm (functions : List External) :
    (functions.foldr place []).Perm functions := by
  induction functions with
  | nil => exact .nil
  | cons f rest ih => exact (place_perm f _).trans (ih.cons f)

theorem mem_standard : f ∈ standard.functions ↔ f ∈ standardFunctions :=
  (foldr_place_perm standardFunctions).mem_iff

theorem distinct_empty : ({} : Table).Distinct :=
  ⟨.nil, .nil⟩

theorem distinct_standard : standard.Distinct :=
  ⟨by decide, by decide⟩

/-- An attempt to add a function: the first thing that is wrong with it, or the table that has it. -/
theorem register_cases (t : Table) (f : External) :
    (∃ fault, f.signature.fault? = some fault ∧
      t.register f = .error (.invalidSignature f.signature fault)) ∨
    f.signature.fault? = none ∧
      ((∃ g ∈ t.functions, g.signature.id = f.signature.id) ∧
          t.register f = .error (.duplicateId f.signature.id) ∨
        (∀ g ∈ t.functions, g.signature.id ≠ f.signature.id) ∧
          ((∃ g ∈ t.functions, g.signature.name = f.signature.name) ∧
              t.register f = .error (.duplicateName f.signature.name) ∨
            (∀ g ∈ t.functions, g.signature.name ≠ f.signature.name) ∧
              t.register f = .ok ⟨place f t.functions⟩)) := by
  unfold register
  cases sized : f.signature.fault? with
  | some fault => exact .inl ⟨fault, rfl, rfl⟩
  | none =>
    refine .inr ⟨rfl, ?_⟩
    dsimp only
    simp only [signatures, List.any_map, List.any_eq_true, Function.comp_apply, decide_eq_true_eq]
    split
    · exact .inl ⟨‹_›, rfl⟩
    · rename_i newId
      refine .inr ⟨fun g known same => newId ⟨g, known, same⟩, ?_⟩
      split
      · exact .inl ⟨‹_›, rfl⟩
      · rename_i newName
        exact .inr ⟨fun g known same => newName ⟨g, known, same⟩, rfl⟩

/-- What is added has a number and a name that no function had. -/
theorem of_register {t' : Table} (added : t.register f = .ok t') :
    (∀ g ∈ t.functions, g.signature.id ≠ f.signature.id) ∧
      (∀ g ∈ t.functions, g.signature.name ≠ f.signature.name) ∧ t' = ⟨place f t.functions⟩ := by
  rcases register_cases t f with ⟨_, _, done⟩ | ⟨_, ⟨_, done⟩ | ⟨newId, ⟨_, done⟩ | ⟨newName, done⟩⟩⟩ <;>
    cases done.symm.trans added
  exact ⟨newId, newName, rfl⟩

theorem Distinct.register (h : t.Distinct) {t' : Table} (added : t.register f = .ok t') :
    t'.Distinct := by
  obtain ⟨newId, newName, rfl⟩ := of_register added
  exact ⟨nodup_place h.ids newId, nodup_place h.names newName⟩

/-- The table after an attempt to add each of some functions. A refused one changes nothing. -/
def addAll (t : Table) : List External → Table
  | [] => t
  | f :: rest =>
    match t.register f with
    | .ok t' => t'.addAll rest
    | .error _ => t.addAll rest

/-- What every function that is added keeps is kept by all attempts to add one. -/
theorem addAll_keeps {P : Table → Prop}
    (kept : ∀ (t : Table) (f : External) (t' : Table), P t → t.register f = .ok t' → P t')
    (h : P t) (functions : List External) : P (t.addAll functions) := by
  induction functions generalizing t with
  | nil => exact h
  | cons f rest ih =>
    unfold addAll
    split
    · rename_i t' added
      exact ih (kept t f t' h added)
    · exact ih h

theorem Distinct.addAll (h : t.Distinct) (functions : List External) :
    (t.addAll functions).Distinct :=
  addAll_keeps (fun _ _ _ kept added => kept.register added) h functions

theorem toInt_ofNat_id (id : UInt16) : (Int32.ofNat id.toNat).toInt = id.toNat := by
  have small := id.toNat_lt
  exact Int32.toInt_ofNat_of_lt (by omega)

/-- A function is found under its own number, and under no other. -/
theorem Distinct.find?_eq_some_iff (h : t.Distinct) {id : Int32} :
    t.find? id = some f ↔ f ∈ t.functions ∧ (f.signature.id.toNat : Int) = id.toInt := by
  constructor
  · intro found
    have number := List.find?_some found
    rw [decide_eq_true_eq] at number
    exact ⟨List.mem_of_find?_eq_some found, number⟩
  · rintro ⟨member, same⟩
    have isSome : (t.find? id).isSome := by
      rw [find?, List.find?_isSome]
      exact ⟨f, member, decide_eq_true same⟩
    obtain ⟨g, found⟩ := Option.isSome_iff_exists.mp isSome
    have number := List.find?_some found
    rw [decide_eq_true_eq] at number
    have ids : g.signature.id = f.signature.id := by
      apply UInt16.toNat_inj.mp
      omega
    rw [found, List.inj_on_of_nodup_map h.ids (List.mem_of_find?_eq_some found) member ids]

theorem Distinct.find?_self (h : t.Distinct) (member : f ∈ t.functions) :
    t.find? (Int32.ofNat f.signature.id.toNat) = some f :=
  h.find?_eq_some_iff.mpr ⟨member, (toInt_ofNat_id _).symm⟩

theorem Distinct.find?_id (h : t.Distinct) {signature : Signature} (known : signature ∈ t.signatures) :
    ∃ f, t.find? (Int32.ofNat signature.id.toNat) = some f ∧ f.signature = signature := by
  obtain ⟨g, member, rfl⟩ := List.mem_map.mp known
  exact ⟨g, h.find?_self member, rfl⟩

end RobotArena.Table
