import Mathlib.Data.List.Induction
import RobotArena.Machine.Panel

/-!
# The numbers of elements

A panel numbers its elements in a circle: after the greatest number comes one again. The history of a panel
counts how many elements were put up and remembers which creation each live element comes from. The main
statement is that an act for one team leaves all elements of other teams as they are, and that a new element
takes the place of a live one exactly when that one has been there for a full circle of creations.
-/

namespace RobotArena.Panel

/-! ### The elements after an operation -/

/-- Elements stand in the order of their numbers. -/
def Sorted (p : Panel) : Prop :=
  (p.elements.map (·.1)).Pairwise (· < ·)

theorem mem_place {id : UInt32} {e : Element} {es : List (UInt32 × Element)} {x : UInt32 × Element}
    (member : x ∈ place id e es) : x = (id, e) ∨ x ∈ es := by
  induction es with
  | nil => exact .inl (List.mem_singleton.mp member)
  | cons first rest ih =>
    obtain ⟨i, f⟩ := first
    simp only [place] at member
    split at member
    · exact List.mem_cons.mp member
    · split at member
      · exact (List.mem_cons.mp member).imp_right (List.mem_cons_of_mem _)
      · rcases List.mem_cons.mp member with here | later
        · exact .inr (here ▸ List.mem_cons_self)
        · exact (ih later).imp_right (List.mem_cons_of_mem _)

theorem mem_keys_place {id i : UInt32} {e : Element} {es : List (UInt32 × Element)}
    (member : i ∈ (place id e es).map (·.1)) : i = id ∨ i ∈ es.map (·.1) := by
  obtain ⟨x, there, rfl⟩ := List.mem_map.mp member
  rcases mem_place there with rfl | old
  · exact .inl rfl
  · exact .inr (List.mem_map_of_mem old)

theorem mem_of_find? {p : Panel} {id : UInt32} {e : Element} (found : p.find? id = some e) :
    (id, e) ∈ p.elements := by
  obtain ⟨before, after, split, _⟩ := List.lookup_eq_some_iff.mp found
  rw [split]
  exact List.mem_append_right _ List.mem_cons_self

theorem sorted_place {id : UInt32} {e : Element} {es : List (UInt32 × Element)}
    (sorted : (es.map (·.1)).Pairwise (· < ·)) : ((place id e es).map (·.1)).Pairwise (· < ·) := by
  induction es with
  | nil => exact List.pairwise_singleton _ _
  | cons first rest ih =>
    obtain ⟨j, f⟩ := first
    obtain ⟨least, sorted'⟩ := List.pairwise_cons.mp sorted
    simp only [place]
    split
    · rename_i before
      refine List.pairwise_cons.mpr ⟨fun i member => ?_, sorted⟩
      rcases List.mem_cons.mp member with rfl | later
      · exact before
      · exact UInt32.lt_trans before (least i later)
    · split
      · rename_i same
        exact List.pairwise_cons.mpr ⟨fun i later => same ▸ least i later, sorted'⟩
      · rename_i notBefore other
        refine List.pairwise_cons.mpr ⟨fun i member => ?_, ih sorted'⟩
        rcases mem_keys_place member with rfl | later
        · exact UInt32.lt_of_le_of_ne (UInt32.not_lt.mp notBefore) (Ne.symm other)
        · exact least i later

theorem lookup_filter_ne {id i : UInt32} (other : i ≠ id) (es : List (UInt32 × Element)) :
    (es.filter (·.1 ≠ id)).lookup i = es.lookup i := by
  induction es with
  | nil => rfl
  | cons first rest ih =>
    by_cases here : first.1 = id
    · have apart : (i == first.1) = false := by rw [here]; simpa using other
      rw [List.filter_cons_of_neg (by simp [here]), ih, List.lookup_cons, apart]
    · rw [List.filter_cons_of_pos (by simpa using here), List.lookup_cons, List.lookup_cons, ih]

theorem lookup_eq_none {i : UInt32} {es : List (UInt32 × Element)} (absent : i ∉ es.map (·.1)) :
    es.lookup i = none := by
  refine List.lookup_eq_none_iff.mpr fun entry member => ?_
  simpa using fun same : i = entry.1 => absent (same ▸ List.mem_map_of_mem member)

/-- What is taken down for what it is leaves the others under their numbers. -/
theorem lookup_filter_value {es : List (UInt32 × Element)} (distinct : (es.map (·.1)).Nodup)
    (q : Element → Bool) (i : UInt32) :
    (es.filter fun entry => q entry.2).lookup i = (es.lookup i).filter q := by
  induction es with
  | nil => rfl
  | cons first rest ih =>
    obtain ⟨j, f⟩ := first
    obtain ⟨new, distinct⟩ := List.nodup_cons.mp distinct
    by_cases here : i = j
    · subst here
      have gone : (rest.filter fun entry => q entry.2).lookup i = none :=
        lookup_eq_none fun member => new ((List.filter_sublist.map _).subset member)
      cases kept : q f with
      | true => simp [kept, Option.filter_some]
      | false => simp [kept, gone, Option.filter_some]
    · have apart : (i == j) = false := by simpa using here
      cases kept : q f with
      | true => simp [kept, List.lookup_cons, apart, ih distinct]
      | false => simp [kept, List.lookup_cons, apart, ih distinct]

theorem find?_removeOwner {p : Panel} (sorted : p.Sorted) (owner : EntityId) (i : UInt32) :
    (p.removeOwner owner).find? i = (p.find? i).filter (·.owner ≠ owner) :=
  lookup_filter_value (sorted.imp UInt32.ne_of_lt) (fun e => e.owner ≠ owner) i

/-! ### Acts -/

/-- What can be done to a panel. -/
inductive Act where
  | create (owner : EntityId) (team : TeamId) (kind : ElementKind) (position : Vec2)
  | update (team : TeamId) (id : UInt32) (value : Binary32) (label : String)
  | destroy (team : TeamId) (id : UInt32)
  | removeOwner (owner : EntityId)

/-- The team that an act is done for; nothing if an entity is removed. -/
def Act.team? : Act → Option TeamId
  | .create _ team _ _ | .update team _ _ _ | .destroy team _ => some team
  | .removeOwner _ => none

/-- How many elements an act puts up. -/
def Act.creations : Act → Nat
  | .create .. => 1
  | _ => 0

/-- The panel after an act. One that is refused changes nothing. -/
def perform (p : Panel) : Act → Panel
  | .create owner team kind position => (p.create { owner, team, kind, position }).2
  | .update team id value label => (p.update team id value label).toOption.getD p
  | .destroy team id => ((p.destroy team id).toOption.map (·.2)).getD p
  | .removeOwner owner => p.removeOwner owner

/-- A panel after some acts, the first one first. -/
def run (p : Panel) (acts : List Act) : Panel :=
  acts.foldl perform p

/-- What an act leaves of the elements: at most one of the acting team's is changed or taken down, a new
one stands at the next number, and with an entity all that it put up goes. -/
def outcome (p : Panel) (i : UInt32) : Act → Option Element
  | .create owner team kind position =>
    if i = p.nextId then some { owner, team, kind, position } else p.find? i
  | .update team id value label =>
    (p.find? i).map fun e => if i = id ∧ e.team = team then { e with value, label } else e
  | .destroy team id => (p.find? i).filter fun e => ¬(i = id ∧ e.team = team)
  | .removeOwner owner => (p.find? i).filter (·.owner ≠ owner)

theorem owned_eq_ok {p : Panel} {team : TeamId} {id : UInt32} {e : Element} :
    p.owned team id = .ok e ↔ p.find? id = some e ∧ e.team = team := by
  unfold owned
  cases found : p.find? id with
  | none => simp
  | some f =>
    by_cases same : f.team = team
    · simp only [same, if_true, Except.ok.injEq, Option.some.injEq]
      exact ⟨fun equal => ⟨equal, equal ▸ same⟩, And.left⟩
    · simp only [same, if_false, reduceCtorEq, false_iff]
      rintro ⟨equal, team⟩
      cases equal
      exact same team

theorem update_cases (p : Panel) (team : TeamId) (id : UInt32) (value : Binary32) (label : String) :
    (∃ e, p.find? id = some e ∧ e.team = team ∧ p.perform (.update team id value label) =
      { p with elements := place id { e with value, label } p.elements }) ∨
    (∀ e, p.find? id = some e → e.team ≠ team) ∧ p.perform (.update team id value label) = p := by
  simp only [perform, update]
  cases asked : p.owned team id with
  | ok e =>
    obtain ⟨found, own⟩ := owned_eq_ok.mp asked
    exact .inl ⟨e, found, own, rfl⟩
  | error _ =>
    refine .inr ⟨fun e found own => ?_, rfl⟩
    cases asked.symm.trans (owned_eq_ok.mpr ⟨found, own⟩)

theorem destroy_cases (p : Panel) (team : TeamId) (id : UInt32) :
    (∃ e, p.find? id = some e ∧ e.team = team ∧ p.perform (.destroy team id) =
      { p with elements := p.elements.filter (·.1 ≠ id) }) ∨
    (∀ e, p.find? id = some e → e.team ≠ team) ∧ p.perform (.destroy team id) = p := by
  simp only [perform, destroy]
  cases asked : p.owned team id with
  | ok e =>
    obtain ⟨found, own⟩ := owned_eq_ok.mp asked
    exact .inl ⟨e, found, own, rfl⟩
  | error _ =>
    refine .inr ⟨fun e found own => ?_, rfl⟩
    cases asked.symm.trans (owned_eq_ok.mpr ⟨found, own⟩)

theorem sorted_perform {p : Panel} (sorted : p.Sorted) (act : Act) : (p.perform act).Sorted := by
  cases act with
  | create owner team kind position => exact sorted_place sorted
  | update team id value label =>
    rcases p.update_cases team id value label with ⟨e, _, _, same⟩ | ⟨_, same⟩
    · rw [same]
      exact sorted_place sorted
    · rwa [same]
  | destroy team id =>
    rcases p.destroy_cases team id with ⟨e, _, _, same⟩ | ⟨_, same⟩
    · rw [same]
      exact sorted.sublist (List.filter_sublist.map _)
    · rwa [same]
  | removeOwner owner => exact sorted.sublist (List.filter_sublist.map _)

theorem find?_perform {p : Panel} (sorted : p.Sorted) (act : Act) (i : UInt32) :
    (p.perform act).find? i = p.outcome i act := by
  cases act with
  | create owner team kind position => exact p.find?_create _ i
  | update team id value label =>
    unfold outcome
    rcases p.update_cases team id value label with ⟨e, found, own, same⟩ | ⟨foreign, same⟩
    · rw [same, find?, lookup_place]
      by_cases here : i = id
      · rw [here, found]
        simp [own]
      · simp [here, find?]
    · rw [same]
      cases found : p.find? i with
      | none => rfl
      | some e =>
        have other : ¬(i = id ∧ e.team = team) := fun both => foreign e (both.1 ▸ found) both.2
        simp [other]
  | destroy team id =>
    simp only [outcome]
    rcases p.destroy_cases team id with ⟨e, found, own, same⟩ | ⟨foreign, same⟩
    · rw [same, find?]
      by_cases here : i = id
      · have gone : i ∉ (p.elements.filter (·.1 ≠ id)).map (·.1) := by simp [here]
        rw [lookup_eq_none gone, here, found, Option.filter_some, if_neg (by simp [own])]
      · rw [lookup_filter_ne here]
        change p.find? i = _
        cases p.find? i with
        | none => rfl
        | some f => rw [Option.filter_some, if_pos (by simp [here])]
    · rw [same]
      cases found : p.find? i with
      | none => rfl
      | some e =>
        have other : ¬(i = id ∧ e.team = team) := fun both => foreign e (both.1 ▸ found) both.2
        rw [Option.filter_some, if_pos (decide_eq_true other)]
  | removeOwner owner => exact find?_removeOwner sorted owner i

theorem run_append (p : Panel) (first second : List Act) :
    p.run (first ++ second) = (p.run first).run second :=
  List.foldl_append

theorem run_concat (p : Panel) (acts : List Act) (act : Act) :
    p.run (acts ++ [act]) = (p.run acts).perform act :=
  p.run_append acts [act]

theorem sorted_run (acts : List Act) : (run {} acts).Sorted := by
  induction acts using List.reverseRecOn with
  | nil => exact List.Pairwise.nil
  | append_singleton acts act ih =>
    rw [run_concat]
    exact sorted_perform ih act

/-! ### The circle of numbers -/

/-- How many numbers there are. -/
def period : Nat := 4294967295

/-- The number that a creation gives; the first creation is creation zero. -/
def number (n : Nat) : UInt32 :=
  .ofNat (n % period + 1)

/-- How many elements some acts put up. -/
def creations : List Act → Nat
  | [] => 0
  | act :: rest => act.creations + creations rest

theorem toNat_number (n : Nat) : (number n).toNat = n % period + 1 := by
  have small : n % period + 1 < 2 ^ 32 := by unfold period; omega
  exact UInt32.toNat_ofNat_of_lt' small

theorem number_ne_zero (n : Nat) : number n ≠ 0 := by
  intro zero
  have := congrArg UInt32.toNat zero
  rw [toNat_number] at this
  exact absurd this (Nat.succ_ne_zero _)

theorem number_eq_iff {m n : Nat} : number m = number n ↔ m % period = n % period := by
  rw [← UInt32.toNat_inj, toNat_number, toNat_number, Nat.add_right_cancel_iff]

theorem following_number (n : Nat) : following (number n) = number (n + 1) := by
  have here := toNat_number n
  have next := toNat_number (n + 1)
  have bump : (number n + 1).toNat = (n % period + 1 + 1) % 2 ^ 32 := by
    rw [UInt32.toNat_add, here]
    rfl
  unfold following
  unfold period at here next bump
  split
  · rename_i zero
    rw [zero, UInt32.toNat_zero] at bump
    apply UInt32.toNat_inj.mp
    rw [next, UInt32.toNat_one]
    omega
  · rename_i more
    have more : (number n + 1).toNat ≠ 0 := fun zero => more (UInt32.toNat_inj.mp zero)
    apply UInt32.toNat_inj.mp
    rw [next, bump]
    omega

theorem creations_append (before since : List Act) :
    creations (before ++ since) = creations before + creations since := by
  induction before with
  | nil => exact (Nat.zero_add _).symm
  | cons act rest ih => rw [List.cons_append, creations, creations, ih, Nat.add_assoc]

theorem creations_concat (acts : List Act) (act : Act) :
    creations (acts ++ [act]) = creations acts + act.creations :=
  creations_append acts [act]

theorem nextId_perform (p : Panel) (act : Act) :
    (p.perform act).nextId = if act.creations = 0 then p.nextId else following p.nextId := by
  cases act with
  | create owner team kind position => rfl
  | update team id value label =>
    rcases p.update_cases team id value label with ⟨e, _, _, same⟩ | ⟨_, same⟩ <;> rw [same] <;> rfl
  | destroy team id =>
    rcases p.destroy_cases team id with ⟨e, _, _, same⟩ | ⟨_, same⟩ <;> rw [same] <;> rfl
  | removeOwner owner => rfl

theorem nextId_run (acts : List Act) : (run {} acts).nextId = number (creations acts) := by
  induction acts using List.reverseRecOn with
  | nil => rfl
  | append_singleton acts act ih =>
    rw [run_concat, nextId_perform, ih, creations_concat]
    cases act with
    | create owner team kind position => exact following_number _
    | _ => rfl

/-! ### Live elements and the creations they come from -/

/-- The last creation that gave a number came just after `before`, and in all the acts since then the
number has had an element. -/
structure Born (i : UInt32) (before : List Act) (creation : Act) (since : List Act) : Prop where
  creates : creation.creations = 1
  named : (run {} before).nextId = i
  standing : ∀ earlier later, since = earlier ++ later →
    ((run {} (before ++ creation :: earlier)).find? i).isSome

/-- Some live element was put up a full circle of creations ago. -/
def Circled (acts : List Act) : Prop :=
  ∃ i before creation since, acts = before ++ creation :: since ∧ Born i before creation since ∧
    creations since + 1 = period

theorem Born.concat {i : UInt32} {before since : List Act} {creation : Act}
    (born : Born i before creation since) (act : Act)
    (live : ((run {} (before ++ creation :: (since ++ [act]))).find? i).isSome) :
    Born i before creation (since ++ [act]) where
  creates := born.creates
  named := born.named
  standing earlier later split := by
    rcases later.eq_nil_or_concat with rfl | ⟨later', last, rfl⟩
    · rw [List.append_nil] at split
      exact split ▸ live
    · rw [List.concat_eq_append, ← List.append_assoc] at split
      exact born.standing earlier later' (List.append_inj_left' split rfl)

theorem creations_split (before since : List Act) {creation : Act} (creates : creation.creations = 1) :
    creations (before ++ creation :: since) = creations before + (creations since + 1) := by
  rw [creations_append, creations, creates]
  omega

/-- A live element comes from a creation that is less than a circle old. -/
theorem exists_born {acts : List Act} {i : UInt32} (live : ((run {} acts).find? i).isSome) :
    ∃ before creation since, acts = before ++ creation :: since ∧ Born i before creation since ∧
      creations since < period := by
  induction acts using List.reverseRecOn with
  | nil => cases live
  | append_singleton acts act ih =>
    by_cases new : act.creations = 1 ∧ (run {} acts).nextId = i
    · refine ⟨acts, act, [], rfl, ⟨new.1, new.2, fun earlier later split => ?_⟩, by decide⟩
      rw [(List.append_eq_nil_iff.mp split.symm).1]
      exact live
    · have before : ((run {} acts).find? i).isSome := by
        rw [run_concat, find?_perform (sorted_run acts)] at live
        cases act with
        | create owner team kind position =>
          rwa [outcome, if_neg fun here => new ⟨rfl, here.symm⟩] at live
        | update team id value label => rwa [outcome, Option.isSome_map] at live
        | destroy team id => exact Option.isSome_of_isSome_filter _ _ live
        | removeOwner owner => exact Option.isSome_of_isSome_filter _ _ live
      obtain ⟨first, creation, since, rfl, born, young⟩ := ih before
      refine ⟨first, creation, since ++ [act], by simp, born.concat act (by simpa using live), ?_⟩
      rw [creations_concat]
      cases act with
      | create owner team kind position =>
        -- the creation that completes the circle would give the number itself
        refine Nat.lt_of_le_of_ne young fun full => new ⟨rfl, ?_⟩
        have full : creations since + 1 = period := full
        rw [nextId_run, creations_split _ _ born.creates, full, ← born.named, nextId_run, number_eq_iff,
          Nat.add_mod_right]
      | _ => exact young

theorem live_next_iff (acts : List Act) :
    ((run {} acts).find? (run {} acts).nextId).isSome ↔ Circled acts := by
  constructor
  · intro live
    obtain ⟨before, creation, since, split, born, young⟩ := exists_born live
    refine ⟨_, before, creation, since, split, born, ?_⟩
    -- both creations give the same number, and less than a circle and one lies between them
    have same := born.named
    rw [nextId_run, nextId_run, split, creations_split _ _ born.creates, number_eq_iff] at same
    unfold period at same young ⊢
    omega
  · rintro ⟨i, before, creation, since, rfl, born, full⟩
    have here : (run {} (before ++ creation :: since)).nextId = i := by
      rw [nextId_run, creations_split _ _ born.creates, full, ← born.named, nextId_run, number_eq_iff,
        Nat.add_mod_right]
    rw [here]
    exact born.standing since [] (List.append_nil _).symm

/-! ### Elements of other teams -/

theorem find?_perform_foreign {p : Panel} (sorted : p.Sorted) {act : Act} {team : TeamId}
    (actor : act.team? = some team) {i : UInt32} {e : Element} (found : p.find? i = some e)
    (foreign : e.team ≠ team) :
    (p.perform act).find? i = some e ↔ ¬(act.creations = 1 ∧ i = p.nextId) := by
  rw [find?_perform sorted]
  cases act with
  | create owner team' kind position =>
    cases actor
    simp only [outcome, Act.creations, true_and]
    split
    · rename_i here
      refine iff_of_false (fun same => foreign ?_) (fun apart => apart here)
      exact (congrArg Element.team (Option.some.inj same)).symm
    · rename_i apart
      exact iff_of_true found apart
  | update team' id value label =>
    cases actor
    rw [outcome, found, Option.map_some, if_neg fun both => foreign both.2]
    exact iff_of_true rfl (by simp [Act.creations])
  | destroy team' id =>
    cases actor
    rw [outcome, found, Option.filter_some, if_pos (by simp [foreign])]
    exact iff_of_true rfl (by simp [Act.creations])
  | removeOwner owner => cases actor

/-- After any acts: a creation answers a number that is not zero, and it is that of a live element exactly
when one has stood for a full circle of creations. Every act leaves the elements as `outcome` says, and what
is done for a team alters or replaces another team's element exactly when it is the creation that completes
that element's circle. -/
theorem foreign_untouched_iff (acts : List Act) (act : Act) :
    (∀ e, ((run {} acts).create e).1 ≠ 0 ∧
      (((run {} acts).find? ((run {} acts).create e).1).isSome ↔ Circled acts)) ∧
    (∀ i, ((run {} acts).perform act).find? i = (run {} acts).outcome i act) ∧
    ∀ team i e, act.team? = some team → (run {} acts).find? i = some e → e.team ≠ team →
      (((run {} acts).perform act).find? i = some e ↔
        ¬(act.creations = 1 ∧ i = (run {} acts).nextId ∧ Circled acts)) := by
  refine ⟨fun e => ⟨?_, live_next_iff acts⟩, find?_perform (sorted_run acts) act, ?_⟩
  · change (run {} acts).nextId ≠ 0
    rw [nextId_run]
    exact number_ne_zero _
  · intro team i e actor found foreign
    rw [find?_perform_foreign (sorted_run acts) actor found foreign]
    have circled : i = (run {} acts).nextId → Circled acts := by
      intro here
      apply (live_next_iff acts).mp
      rw [← here, found]
      rfl
    exact not_congr ⟨fun ⟨creates, here⟩ => ⟨creates, here, circled here⟩, fun all => ⟨all.1, all.2.1⟩⟩

/-- A gauge that team 1 puts up. -/
def gauge : Element :=
  { owner := ⟨1⟩, team := ⟨1⟩, kind := .gauge, position := ⟨0, 0⟩ }

/-- Puts up team 1's gauge. -/
def gaugeUp : Act := .create ⟨1⟩ ⟨1⟩ .gauge ⟨0, 0⟩

/-- Puts up a button of team 2. -/
def buttonUp : Act := .create ⟨2⟩ ⟨2⟩ .button ⟨0, 0⟩

theorem other_team_cannot_destroy_gauge :
    (Act.destroy ⟨2⟩ 1).team? = some ⟨2⟩ ∧ (run {} [gaugeUp]).find? 1 = some gauge ∧ gauge.team ≠ ⟨2⟩ ∧
      ((run {} [gaugeUp]).perform (.destroy ⟨2⟩ 1)).find? 1 = some gauge := by
  have untouched := (foreign_untouched_iff [gaugeUp] (.destroy ⟨2⟩ 1)).2.2 ⟨2⟩ 1 gauge rfl rfl (by decide)
  exact ⟨rfl, rfl, by decide, untouched.mpr fun circled => absurd circled.1 (by decide)⟩

/-- Team 2 puts up so many buttons, one after the other, and takes each down again. -/
def turns : Nat → List Act
  | 0 => []
  | n + 1 => turns n ++ [buttonUp, .destroy ⟨2⟩ (number (n + 1))]

theorem one_lt_number {n : Nat} (few : n + 1 < period) : 1 < number (n + 1) := by
  rw [UInt32.lt_iff_toNat_lt, toNat_number, Nat.mod_eq_of_lt few, UInt32.toNat_one]
  omega

theorem run_turns (n : Nat) (few : n < period) :
    run {} (gaugeUp :: turns n) = ⟨[(1, gauge)], number (n + 1)⟩ := by
  induction n with
  | zero => rfl
  | succ n ih =>
    have later : 1 < number (n + 1) := one_lt_number few
    have apart : number (n + 1) ≠ 1 := (UInt32.ne_of_lt later).symm
    let button : Element := { owner := ⟨2⟩, team := ⟨2⟩, kind := .button, position := ⟨0, 0⟩ }
    have up : perform ⟨[(1, gauge)], number (n + 1)⟩ buttonUp =
        ⟨[(1, gauge), (number (n + 1), button)], number (n + 2)⟩ := by
      simp only [perform, buttonUp, create, place, UInt32.lt_asymm later, apart, if_false, following_number]
      rfl
    have down : perform ⟨[(1, gauge), (number (n + 1), button)], number (n + 2)⟩
        (.destroy ⟨2⟩ (number (n + 1))) = ⟨[(1, gauge)], number (n + 2)⟩ := by
      have found : List.lookup (number (n + 1)) [(1, gauge), (number (n + 1), button)] = some button := by
        simp [List.lookup_cons, beq_false_of_ne apart]
      rcases destroy_cases ⟨[(1, gauge), (number (n + 1), button)], number (n + 2)⟩ ⟨2⟩ (number (n + 1)) with
        ⟨e, _, _, same⟩ | ⟨foreign, _⟩
      · rw [same]
        simp [apart.symm]
      · exact absurd rfl (foreign button found)
    rw [turns, ← List.cons_append, run_append, ih (Nat.lt_of_succ_lt few)]
    exact (congrArg (perform · _) up).trans down

/-- The creation after team 2's last turn gives the gauge's number again. -/
theorem circle_replaces_gauge :
    ¬∀ acts act team i e, Act.team? act = some team → (run {} acts).find? i = some e → e.team ≠ team →
      ((run {} acts).perform act).find? i = some e := by
  intro kept
  have full := run_turns (period - 1) (Nat.sub_one_lt (by decide))
  have one : number (period - 1 + 1) = 1 := by
    rw [Nat.sub_add_cancel (by decide), number, Nat.mod_self]
    rfl
  rw [one] at full
  have gone := kept (gaugeUp :: turns (period - 1)) buttonUp ⟨2⟩ 1 gauge rfl (by rw [full]; rfl) (by decide)
  rw [full] at gone
  cases gone

end RobotArena.Panel
