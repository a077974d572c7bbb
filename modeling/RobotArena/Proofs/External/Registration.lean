import Mathlib.Data.List.ReduceOption
import Mathlib.Data.List.Sort
import Mathlib.Tactic.SplitIfs
import RobotArena.Proofs.External.Table

/-!
# Functions that are offered to a table

Functions can be offered in any order, with any numbers and names, and with sizes that no block has. A
table takes a function if nothing is wrong with it, and is otherwise left as it was. The main statement is
that numbers and names go with one function each at all times, and that a function stays where it is found
once it has been taken. The table answers as a row of places does in which each function is laid in the place
of its number, and which grows when a number is behind its end.
-/

namespace RobotArena

/-- The blocks hold whole words: at most six of arguments and two of results. -/
def Signature.Sized (s : Signature) : Prop :=
  4 ∣ s.argSize.toNat ∧ 4 ∣ s.retSize.toNat ∧ s.argSize.toNat ≤ 24 ∧ s.retSize.toNat ≤ 8

instance (s : Signature) : Decidable s.Sized :=
  inferInstanceAs (Decidable (_ ∧ _))

theorem Signature.fault?_eq_none_iff {s : Signature} : s.fault? = none ↔ s.Sized := by
  have whole (b : UInt8) : b % 4 = 0 ↔ 4 ∣ b.toNat := by
    rw [Nat.dvd_iff_mod_eq_zero, ← UInt8.toNat_inj, UInt8.toNat_mod]
    rfl
  have arguments : maxArgSize < s.argSize ↔ ¬s.argSize.toNat ≤ 24 := by
    rw [Nat.not_le, UInt8.lt_iff_toNat_lt]
    rfl
  have results : maxRetSize < s.retSize ↔ ¬s.retSize.toNat ≤ 8 := by
    rw [Nat.not_le, UInt8.lt_iff_toNat_lt]
    rfl
  simp only [fault?, Sized, ne_eq, whole, arguments, results]
  split_ifs <;> simp only [true_iff, false_iff] <;> omega

namespace Table

variable {t t' : Table} {f g : External} {functions : List External}

/-! ### What is refused -/

/-- Why a table refuses a function: its sizes, or else its number, or else its name. -/
inductive Refuses (t : Table) (f : External) : TableError → Prop
  | sizes {fault : Signature.Fault} (broken : ¬f.signature.Sized)
      (first : f.signature.fault? = some fault) : Refuses t f (.invalidSignature f.signature fault)
  | number {g : External} (sized : f.signature.Sized)
      (taken : t.find? (Int32.ofNat f.signature.id.toNat) = some g) :
      Refuses t f (.duplicateId f.signature.id)
  | name {g : External} {id : Int32} (sized : f.signature.Sized)
      (free : t.find? (Int32.ofNat f.signature.id.toNat) = none)
      (known : t.find? id = some g) (same : g.signature.name = f.signature.name) :
      Refuses t f (.duplicateName f.signature.name)

theorem Distinct.find?_ofNat_eq_some_iff (h : t.Distinct) {id : UInt16} :
    t.find? (Int32.ofNat id.toNat) = some f ↔ f ∈ t.functions ∧ f.signature.id = id := by
  rw [h.find?_eq_some_iff, toInt_ofNat_id, Int.natCast_inj, UInt16.toNat_inj]

theorem Distinct.find?_ofNat_eq_none_iff (h : t.Distinct) {id : UInt16} :
    t.find? (Int32.ofNat id.toNat) = none ↔ ∀ g ∈ t.functions, g.signature.id ≠ id := by
  simp only [Option.eq_none_iff_forall_ne_some, ne_eq, h.find?_ofNat_eq_some_iff, not_and]

theorem Distinct.register_eq_error_iff (h : t.Distinct) {e : TableError} :
    t.register f = .error e ↔ t.Refuses f e := by
  constructor
  · intro refused
    rcases register_cases t f with ⟨fault, first, done⟩ |
      ⟨fine, ⟨⟨g, known, same⟩, done⟩ | ⟨free, ⟨⟨g, known, same⟩, done⟩ | ⟨_, done⟩⟩⟩ <;>
      cases done.symm.trans refused
    · refine .sizes (fun sized => ?_) first
      rw [Signature.fault?_eq_none_iff.mpr sized] at first
      cases first
    · exact .number (Signature.fault?_eq_none_iff.mp fine) (h.find?_ofNat_eq_some_iff.mpr ⟨known, same⟩)
    · exact .name (Signature.fault?_eq_none_iff.mp fine) (h.find?_ofNat_eq_none_iff.mpr free)
        (h.find?_self known) same
  · intro refuses
    cases refuses with
    | sizes _ first => simp only [Table.register, first]
    | @number g sized taken =>
      have known : ∃ g ∈ t.functions, g.signature.id = f.signature.id :=
        ⟨g, h.find?_ofNat_eq_some_iff.mp taken⟩
      simp [Table.register, signatures, Signature.fault?_eq_none_iff.mpr sized, known]
    | @name g id sized free found same =>
      have known : ∃ g ∈ t.functions, g.signature.name = f.signature.name :=
        ⟨g, (h.find?_eq_some_iff.mp found).1, same⟩
      have new := h.find?_ofNat_eq_none_iff.mp free
      simpa [Table.register, signatures, Signature.fault?_eq_none_iff.mpr sized, known] using new

/-! ### What is found -/

theorem mem_of_register (added : t.register f = .ok t') :
    g ∈ t'.functions ↔ g = f ∨ g ∈ t.functions := by
  obtain ⟨_, _, rfl⟩ := of_register added
  rw [(place_perm f t.functions).mem_iff, List.mem_cons]

theorem Distinct.find?_register (h : t.Distinct) (added : t.register f = .ok t') (id : Int32) :
    t'.find? id = if (f.signature.id.toNat : Int) = id.toInt then some f else t.find? id := by
  have fresh := (of_register added).1
  ext g
  rw [(h.register added).find?_eq_some_iff, mem_of_register added]
  split
  · rename_i number
    constructor
    · rintro ⟨rfl | known, same⟩
      · rfl
      · refine absurd (UInt16.toNat_inj.mp ?_) (fresh g known)
        omega
    · intro same
      cases same
      exact ⟨.inl rfl, number⟩
  · rename_i other
    rw [h.find?_eq_some_iff]
    constructor
    · rintro ⟨rfl | known, same⟩
      · exact absurd same other
      · exact ⟨known, same⟩
    · rintro ⟨known, same⟩
      exact ⟨.inr known, same⟩

/-! ### What has been taken -/

/-- The functions that are taken, in the order in which they are offered. -/
def accepted (t : Table) : List External → List External
  | [] => []
  | f :: rest =>
    match t.register f with
    | .ok t' => f :: t'.accepted rest
    | .error _ => t.accepted rest

theorem addAll_append (t : Table) (first later : List External) :
    t.addAll (first ++ later) = (t.addAll first).addAll later := by
  induction first generalizing t with
  | nil => rfl
  | cons f rest ih =>
    rw [List.cons_append, addAll, addAll]
    split
    · exact ih _
    · exact ih t

theorem addAll_perm (t : Table) (functions : List External) :
    (t.addAll functions).functions.Perm (t.functions ++ t.accepted functions) := by
  induction functions generalizing t with
  | nil => rw [addAll, accepted, List.append_nil]
  | cons f rest ih =>
    rw [addAll, accepted]
    cases added : t.register f with
    | ok t' =>
      obtain ⟨_, _, rfl⟩ := of_register added
      refine (ih _).trans (((place_perm f t.functions).append_right _).trans ?_)
      -- the new function stands before what was there, and is the first of those that are taken
      exact List.perm_middle.symm
    | error e => exact ih t

theorem Distinct.perm (h : t.Distinct) (same : t'.functions.Perm t.functions) : t'.Distinct :=
  ⟨(same.map _).nodup_iff.mpr h.ids, (same.map _).nodup_iff.mpr h.names⟩

theorem Distinct.find?_perm (h : t.Distinct) (same : t'.functions.Perm t.functions) (id : Int32) :
    t'.find? id = t.find? id := by
  ext f
  rw [(h.perm same).find?_eq_some_iff, h.find?_eq_some_iff, same.mem_iff]

theorem Distinct.find?_addAll_of_find? (h : t.Distinct) {id : Int32} (found : t.find? id = some f)
    (later : List External) : (t.addAll later).find? id = some f := by
  obtain ⟨known, number⟩ := h.find?_eq_some_iff.mp found
  have stays : f ∈ (t.addAll later).functions :=
    (addAll_perm t later).mem_iff.mpr (List.mem_append_left _ known)
  exact (h.addAll later).find?_eq_some_iff.mpr ⟨stays, number⟩

/-! ### The order of the numbers -/

/-- Each function has a greater number than the one before it. -/
def Ascending (functions : List External) : Prop :=
  functions.Pairwise fun f g => f.signature.id < g.signature.id

theorem Ascending.place (h : Ascending functions)
    (fresh : ∀ g ∈ functions, g.signature.id ≠ f.signature.id) : Ascending (place f functions) := by
  induction functions with
  | nil => exact List.pairwise_singleton _ _
  | cons g rest ih =>
    obtain ⟨least, sorted⟩ := List.pairwise_cons.mp h
    obtain ⟨differs, others⟩ := List.forall_mem_cons.mp fresh
    unfold Table.place
    split
    · rename_i before
      refine List.pairwise_cons.mpr ⟨List.forall_mem_cons.mpr ⟨before, fun x member => ?_⟩, h⟩
      exact UInt16.lt_trans before (least x member)
    · rename_i behind
      refine List.pairwise_cons.mpr ⟨fun x member => ?_, ih sorted others⟩
      rcases List.mem_cons.mp ((place_perm f rest).mem_iff.mp member) with rfl | later
      · exact UInt16.lt_of_le_of_ne (UInt16.not_lt.mp behind) differs
      · exact least x later

theorem Ascending.addAll (h : Ascending t.functions) (functions : List External) :
    Ascending (t.addAll functions).functions := by
  refine addAll_keeps (P := fun t => Ascending t.functions) (fun t f t' sorted added => ?_) h functions
  obtain ⟨fresh, _, rfl⟩ := of_register added
  exact sorted.place fresh

theorem ascending_standard : Ascending standard.functions := by
  unfold Ascending
  decide

theorem Ascending.ext {others : List External} (h : Ascending functions) (h' : Ascending others)
    (same : ∀ f, f ∈ functions ↔ f ∈ others) : functions = others := by
  -- a strict order on the numbers leaves only one way to list the same functions
  have asymm : Std.Asymm fun f g : External => f.signature.id < g.signature.id :=
    ⟨fun _ _ => UInt16.lt_asymm⟩
  exact List.Pairwise.eq_of_mem_iff h h' same

/-! ### The row of places -/

/-- A function is laid in the place of its number. A row that is too short grows by empty places. -/
def lay (row : List (Option External)) (f : External) : List (Option External) :=
  (row ++ List.replicate (f.signature.id.toNat + 1 - row.length) none).set f.signature.id.toNat (some f)

theorem getElem?_lay (row : List (Option External)) (f : External) (n : Nat) :
    (lay row f)[n]?.join = if f.signature.id.toNat = n then some f else row[n]?.join := by
  unfold lay
  rw [List.getElem?_set]
  split
  · rename_i here
    have inside : f.signature.id.toNat <
        (row ++ List.replicate (f.signature.id.toNat + 1 - row.length) none).length := by
      rw [List.length_append, List.length_replicate]
      omega
    rw [if_pos inside]
    rfl
  · rcases Nat.lt_or_ge n row.length with inside | behind
    · rw [List.getElem?_append_left inside]
    · rw [List.getElem?_append_right behind, List.getElem?_replicate, List.getElem?_eq_none behind]
      split <;> rfl

/-- The row in which functions have been laid one after another. -/
def row (functions : List External) : List (Option External) :=
  functions.foldl lay []

/-- The functions lie in the places of their numbers, and nothing else does. -/
def Lies (functions : List External) (places : List (Option External)) : Prop :=
  ∀ n f, places[n]?.join = some f ↔ f ∈ functions ∧ f.signature.id.toNat = n

variable {places : List (Option External)}

theorem Lies.lay (h : Lies functions places)
    (fresh : ∀ g ∈ functions, g.signature.id ≠ f.signature.id) :
    Lies (functions ++ [f]) (lay places f) := by
  intro n g
  rw [getElem?_lay, List.mem_append, List.mem_singleton]
  split
  · rename_i here
    constructor
    · intro same
      cases same
      exact ⟨.inr rfl, here⟩
    · rintro ⟨known | rfl, number⟩
      · refine absurd (UInt16.toNat_inj.mp ?_) (fresh g known)
        omega
      · rfl
  · rename_i elsewhere
    rw [h n g]
    constructor
    · rintro ⟨known, number⟩
      exact ⟨.inl known, number⟩
    · rintro ⟨known | rfl, number⟩
      · exact ⟨known, number⟩
      · exact absurd number elsewhere

theorem Lies.layAll {later : List External} (h : Lies functions places)
    (distinct : ((functions ++ later).map (·.signature.id)).Nodup) :
    Lies (functions ++ later) (later.foldl Table.lay places) := by
  induction later generalizing functions places with
  | nil => rwa [List.append_nil]
  | cons f rest ih =>
    -- no place is used twice, so nothing that lies in the row is covered
    have fresh : ∀ g ∈ functions, g.signature.id ≠ f.signature.id := by
      intro g known same
      rw [List.map_append, List.nodup_append] at distinct
      exact distinct.2.2 _ (List.mem_map_of_mem known) _ (List.mem_map_of_mem List.mem_cons_self) same
    rw [List.append_cons] at distinct ⊢
    exact ih (h.lay fresh) distinct

theorem lies_row (distinct : (functions.map (·.signature.id)).Nodup) : Lies functions (row functions) := by
  have nothing : Lies [] [] := fun n f => by simp
  exact nothing.layAll distinct

theorem Lies.mem_reduceOption_iff (h : Lies functions places) : f ∈ places.reduceOption ↔ f ∈ functions := by
  rw [List.reduceOption_mem_iff, List.mem_iff_getElem?]
  constructor
  · rintro ⟨n, here⟩
    exact ((h n f).mp (by rw [here]; rfl)).1
  · intro known
    exact ⟨_, Option.join_eq_some_iff.mp ((h _ f).mpr ⟨known, rfl⟩)⟩

theorem Lies.ascending (h : Lies functions places) : Ascending places.reduceOption := by
  refine List.pairwise_filterMap.mpr (List.pairwise_iff_getElem.mpr ?_)
  intro i j insideI insideJ before f first g last
  have place {n : Nat} {x : External} (inside : n < places.length) (held : id places[n] = some x) :
      x.signature.id.toNat = n :=
    ((h n x).mp (by rw [List.getElem?_eq_getElem inside, ← held]; rfl)).2
  rw [UInt16.lt_iff_toNat_lt, place insideI first, place insideJ last]
  exact before

/-- The table lists what lies in the row. -/
theorem Distinct.eq_reduceOption (h : t.Distinct) (sorted : Ascending t.functions)
    (same : t.functions.Perm functions) : t.functions = (row functions).reduceOption := by
  have lies := lies_row ((same.map _).nodup_iff.mp h.ids)
  exact sorted.ext lies.ascending fun f => by rw [lies.mem_reduceOption_iff, same.mem_iff]

/-- A function is found by a look at one place of the row. -/
theorem Distinct.find?_eq_getElem? (h : t.Distinct) (same : t.functions.Perm functions) (id : Int32) :
    t.find? id = if 0 ≤ id.toInt then (row functions)[id.toInt.toNat]?.join else none := by
  have lies := lies_row ((same.map _).nodup_iff.mp h.ids)
  ext f
  rw [h.find?_eq_some_iff, same.mem_iff]
  split
  · rename_i inside
    have number : (f.signature.id.toNat : Int) = id.toInt ↔ f.signature.id.toNat = id.toInt.toNat := by omega
    rw [lies, number]
  · rename_i negative
    simp only [reduceCtorEq, iff_false, not_and]
    intro known
    omega

/-! ### Offers at any time -/

theorem addAll_concat_of_error (start : Table) (calls : List External) {e : TableError}
    (refused : (start.addAll calls).register f = .error e) :
    start.addAll (calls ++ [f]) = start.addAll calls := by
  rw [addAll_append, addAll, refused]
  rfl

theorem addAll_concat_of_ok (start : Table) (calls : List External)
    (added : (start.addAll calls).register f = .ok t') : start.addAll (calls ++ [f]) = t' := by
  rw [addAll_append, addAll, added]
  rfl

/-- A number finds a function that has this number, no name is there twice, and the signatures are those of
the functions that are found, by number. -/
structure OneToOne (t : Table) : Prop where
  number : ∀ id f, t.find? id = some f → id.toInt = f.signature.id.toNat
  names : (t.signatures.map (·.name)).Nodup
  listed : ∀ s, s ∈ t.signatures ↔ ∃ f, t.find? (Int32.ofNat s.id.toNat) = some f ∧ f.signature = s
  ascending : t.signatures.Pairwise fun s s' => s.id < s'.id

theorem Distinct.oneToOne (h : t.Distinct) (sorted : Ascending t.functions) : t.OneToOne where
  number id f found := (h.find?_eq_some_iff.mp found).2.symm
  names := by
    rw [signatures, List.map_map]
    exact h.names
  listed s := by
    constructor
    · exact h.find?_id
    · rintro ⟨f, found, rfl⟩
      exact List.mem_map_of_mem (h.find?_eq_some_iff.mp found).1
  ascending := List.pairwise_map.mpr sorted

/-- Whatever is offered to the empty table or the standard one: a function is refused for its sizes, or else
for its number, or else for its name, and then the table is left as it is. At all times numbers and names go
with one function each, the functions are those that the table began with and those it has taken, by number,
and the first one that was taken with a number is found under it from then on. They are the functions in the
row in which they have been laid, one after another. -/
theorem tables_are_one_to_one (start : Table) (built : start = {} ∨ start = .standard)
    (calls : List External) :
    let t := start.addAll calls
    let taken := start.functions ++ start.accepted calls
    (∀ f e, t.register f = .error e ↔ t.Refuses f e) ∧
      (∀ f e, t.register f = .error e → start.addAll (calls ++ [f]) = t) ∧
      (∀ f t', t.register f = .ok t' → start.addAll (calls ++ [f]) = t' ∧
        ∀ id, t'.find? id = if (f.signature.id.toNat : Int) = id.toInt then some f else t.find? id) ∧
      t.OneToOne ∧
      t.functions.length = start.functions.length + (start.accepted calls).length ∧
      (∀ id f, t.find? id = some f → ∀ later, (start.addAll (calls ++ later)).find? id = some f) ∧
      (∀ id, t.find? id = taken.find? fun f => (f.signature.id.toNat : Int) = id.toInt) ∧
      t.functions = (row taken).reduceOption ∧
      ∀ id, t.find? id = if 0 ≤ id.toInt then (row taken)[id.toInt.toNat]?.join else none := by
  intro t taken
  have sound : start.Distinct ∧ Ascending start.functions := by
    rcases built with rfl | rfl
    · exact ⟨distinct_empty, .nil⟩
    · exact ⟨distinct_standard, ascending_standard⟩
  have distinct : t.Distinct := sound.1.addAll calls
  have sorted : Ascending t.functions := sound.2.addAll calls
  have same : t.functions.Perm taken := addAll_perm start calls
  refine ⟨fun f e => distinct.register_eq_error_iff,
    fun f e refused => addAll_concat_of_error start calls refused,
    fun f t' added => ⟨addAll_concat_of_ok start calls added, distinct.find?_register added⟩,
    distinct.oneToOne sorted, ?_, ?_, ?_, distinct.eq_reduceOption sorted same,
    distinct.find?_eq_getElem? same⟩
  · rw [same.length_eq, List.length_append]
  · intro id f found later
    rw [addAll_append]
    exact distinct.find?_addAll_of_find? found later
  · intro id
    have asTaken : (⟨taken⟩ : Table).find? id = t.find? id := distinct.find?_perm same.symm id
    exact asTaken.symm

/-- Two functions that can be taken, with the greater number first. Then one with blocks that are no whole
words, under a number that is taken by then, one with a taken number and a taken name, and one with a taken
name. -/
def offers : List External :=
  [.echo ⟨65535, "far", 8, 4⟩, .echo ⟨5, "near", 0, 4⟩, .echo ⟨5, "odd", 3, 0⟩, .self ⟨5, "sqrt", 4, 4⟩,
    .echo ⟨6, "print", 4, 4⟩]

theorem far_and_near_are_taken :
    (Table.standard = {} ∨ Table.standard = .standard) ∧
      (standard.accepted offers).map (·.signature.id) = [65535, 5] ∧
      (standard.addAll offers).functions.length = standard.functions.length + 2 ∧
      (standard.addAll offers).register (.echo ⟨5, "odd", 3, 0⟩) =
        .error (.invalidSignature ⟨5, "odd", 3, 0⟩ .notWholeWords) ∧
      (standard.addAll offers).register (.self ⟨5, "sqrt", 4, 4⟩) = .error (.duplicateId 5) ∧
      (standard.addAll offers).register (.echo ⟨6, "print", 4, 4⟩) = .error (.duplicateName "print") := by
  obtain ⟨refused, _, _, _, length, _⟩ := tables_are_one_to_one .standard (.inr rfl) offers
  have two : (standard.accepted offers).length = 2 := by decide +kernel
  have near : ((standard.addAll offers).find? 5).isSome := by decide +kernel
  have free : (standard.addAll offers).find? 6 = none := Option.isNone_iff_eq_none.mp (by decide +kernel)
  have print : ((standard.addAll offers).find? 16).map (·.signature.name) = some "print" := by decide +kernel
  obtain ⟨_, found⟩ := Option.isSome_iff_exists.mp near
  obtain ⟨_, known, same⟩ := Option.map_eq_some_iff.mp print
  rw [two] at length
  refine ⟨.inr rfl, by decide +kernel, length, (refused _ _).mpr (.sizes ?_ rfl),
    (refused _ _).mpr (.number ?_ found), (refused _ _).mpr (.name ?_ free known same)⟩ <;>
    decide

end Table

end RobotArena
