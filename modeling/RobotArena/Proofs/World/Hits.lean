import RobotArena.Proofs.World.Devices

/-!
# Hits

Projectiles are moved one after another, and what one of them does is seen by the next: what it has destroyed
stops no other. `Accounted` says what all of them do together, by the entity that each one hits.
-/

namespace RobotArena

/-! ### The nearest of some things -/

theorem placeLe_iff {a b : Binary32} : a.placeLe b = true ↔ a.place ≤ b.place :=
  decide_eq_true_iff

theorem closer_ne_none {α : Type} (best : Option (Binary32 × α)) (c : Binary32 × α) :
    nearest?.closer best c ≠ none := by
  cases best with
  | none => exact Option.some_ne_none c
  | some b =>
    rw [nearest?.closer]
    split
    · exact Option.some_ne_none b
    · exact Option.some_ne_none c

theorem eq_nil_of_nearest? {α : Type} {candidates : List (Binary32 × α)}
    (none : nearest? candidates = none) : candidates = [] := by
  rcases List.eq_nil_or_concat' candidates with rfl | ⟨first, c, rfl⟩
  · rfl
  · have best := Option.map_eq_none_iff.mp none
    rw [List.foldl_concat] at best
    exact absurd best (closer_ne_none _ c)

/-- The nearest of some things is nearer than all before it, and as near as all after it. -/
theorem split_of_nearest? {α : Type} {candidates : List (Binary32 × α)} {a : α}
    (found : nearest? candidates = some a) : ∃ before d after, candidates = before ++ (d, a) :: after ∧
      (∀ c ∈ before, d.place < c.1.place) ∧ ∀ c ∈ after, d.place ≤ c.1.place := by
  have all : ∀ r, candidates.foldl nearest?.closer none = some r → ∃ before after,
      candidates = before ++ r :: after ∧ (∀ c ∈ before, r.1.place < c.1.place) ∧
        ∀ c ∈ after, r.1.place ≤ c.1.place := by
    clear found
    induction candidates using List.reverseRecOn with
    | nil =>
      intro r none
      cases none
    | append_singleton candidates c ih =>
      intro r last
      rw [List.foldl_concat] at last
      cases best : candidates.foldl nearest?.closer none with
      | none =>
        have empty : candidates = [] := eq_nil_of_nearest? (Option.map_eq_none_iff.mpr best)
        rw [best] at last
        cases last
        subst empty
        exact ⟨[], [], rfl, List.forall_mem_nil _, List.forall_mem_nil _⟩
      | some b =>
        obtain ⟨before, after, split, farther, asFar⟩ := ih b best
        rw [best, nearest?.closer] at last
        split at last
        · rename_i nearer
          cases last
          refine ⟨before, after ++ [c], by rw [split, List.append_assoc, List.cons_append], farther, ?_⟩
          intro x member
          rcases List.mem_append.mp member with old | new
          · exact asFar x old
          · obtain rfl := List.mem_singleton.mp new
            exact placeLe_iff.mp nearer
        · rename_i farthest
          cases last
          have nearer : c.1.place < b.1.place := Int.not_le.mp fun less => farthest (placeLe_iff.mpr less)
          refine ⟨candidates, [], rfl, fun x member => ?_, List.forall_mem_nil _⟩
          rw [split] at member
          rcases List.mem_append.mp member with old | later
          · exact Int.lt_trans nearer (farther x old)
          · rcases List.mem_cons.mp later with rfl | after
            · exact nearer
            · exact Int.lt_of_lt_of_le nearer (asFar x after)
  obtain ⟨⟨d, _⟩, best, rfl⟩ := Option.map_eq_some_iff.mp found
  obtain ⟨before, after, split, farther, asFar⟩ := all _ best
  exact ⟨before, d, after, split, farther, asFar⟩

/-! ### What a projectile hits -/

namespace Projectile

variable (radius : Binary32) (p : Projectile)

/-- The projectile at the end of a tick: it has moved by its velocity, and of its ticks, if it had any left,
there is one less. -/
def moved : Projectile :=
  { p with
    position := p.position + p.velocity
    remaining := .ofNat (p.remaining.toNat - 1) }

theorem moved_eq_advance : p.moved = p.advance := by
  have less : p.remaining.toNat - 1 < UInt32.size := Nat.lt_of_le_of_lt (Nat.sub_le _ _) p.remaining.toNat_lt
  have ticks : UInt32.ofNat (p.remaining.toNat - 1) = Turret.cooled p.remaining := by
    rw [← UInt32.toNat_inj, UInt32.toNat_ofNat_of_lt' less, Turret.toNat_cooled]
  rw [moved, ticks]
  rfl

/-- How far an entity is from the projectile. -/
def distance (e : Entity) : Binary32 :=
  e.position.distance p.position

/-- The projectile can hit an entity: one of another team, which has health left and is within the radius. -/
def Reaches (e : Entity) : Prop :=
  e.team ≠ p.team ∧ 0 < e.health ∧ (p.distance e).le radius = true

/-- An entity is nearer than another one, or as near and with no greater number. -/
def Before (e q : Entity) : Prop :=
  (p.distance e).place < (p.distance q).place ∨
    (p.distance e).place = (p.distance q).place ∧ e.id.number ≤ q.id.number

/-- Of some entities, the projectile hits the first one that it can hit, and none if it can hit none. -/
def Picks (entities : List Entity) : Option EntityId → Prop
  | none => ∀ e ∈ entities, ¬p.Reaches radius e
  | some id => ∃ e ∈ entities, e.id = id ∧ p.Reaches radius e ∧
      ∀ q ∈ entities, p.Reaches radius q → p.Before e q

theorem picks_target? {entities : List Entity} (sorted : (entities.map (·.id)).Pairwise (·.number < ·.number)) :
    p.Picks radius entities (p.target? radius entities) := by
  let reached (e : Entity) : Bool := p.threatens e && (p.distance e).le radius
  have reaches : ∀ e, reached e = true ↔ p.Reaches radius e := by
    intro e
    simp [reached, threatens, Reaches, and_assoc]
  have seen : p.target? radius entities = nearest? ((entities.filter reached).map fun e => (p.distance e, e.id)) := by
    unfold target?
    dsimp only
    have within : ∀ e ∈ entities, (((fun c : Binary32 × EntityId => c.1.le radius) ∘ fun e : Entity =>
        (p.distance e, e.id)) e && p.threatens e) = reached e := fun e _ => Bool.and_comm _ _
    rw [← List.filter_congr within, ← List.filter_filter, ← List.filter_map]
    rfl
  rw [seen]
  have inside : ∀ e, e ∈ entities.filter reached ↔ e ∈ entities ∧ p.Reaches radius e := by
    intro e
    rw [List.mem_filter, reaches]
  have sorted : (entities.filter reached).Pairwise (·.id.number < ·.id.number) :=
    (List.pairwise_map.mp sorted).filter reached
  generalize entities.filter reached = within at inside sorted ⊢
  cases found : nearest? (within.map fun e => (p.distance e, e.id)) with
  | none =>
    intro e there reach
    have empty := List.map_eq_nil_iff.mp (eq_nil_of_nearest? found)
    have member := (inside e).mpr ⟨there, reach⟩
    rw [empty] at member
    cases member
  | some id =>
    obtain ⟨_, _, _, split, farther, asFar⟩ := split_of_nearest? found
    obtain ⟨before, rest, rfl, rfl, last⟩ := List.map_eq_append_iff.mp split
    obtain ⟨e, after, rfl, same, rfl⟩ := List.map_eq_cons_iff.mp last
    cases same
    obtain ⟨there, reach⟩ := (inside e).mp (List.mem_append_right _ List.mem_cons_self)
    refine ⟨e, there, rfl, reach, fun q there' reach' => ?_⟩
    rcases List.mem_append.mp ((inside q).mpr ⟨there', reach'⟩) with old | later
    · exact .inl (farther (p.distance q, q.id) (List.mem_map_of_mem old))
    · rcases List.mem_cons.mp later with rfl | last
      · exact .inr ⟨rfl, UInt32.le_refl _⟩
      · have order := (List.pairwise_cons.mp (List.pairwise_append.mp sorted).2.1).1 q last
        have far := asFar (p.distance q, q.id) (List.mem_map_of_mem last)
        rcases Int.lt_or_eq_of_le far with less | same
        · exact .inl less
        · exact .inr ⟨same, UInt32.le_of_lt order⟩

end Projectile

/-! ### Flights -/

/-- A projectile, and the entity that it hits in a tick, if there is one. -/
structure Flight where
  projectile : Projectile
  target : Option EntityId

/-- The projectile as it flies on, from where it has got to: it does if it has hit nothing and still has ticks
left. -/
def Flight.rest? (f : Flight) : Option Projectile :=
  if f.target = none ∧ 0 < f.projectile.moved.remaining then some f.projectile.moved else none

/-- The damage that some flights do to an entity. -/
def toll : List Flight → EntityId → Int
  | [], _ => 0
  | f :: later, id => (if f.target = some id then f.projectile.damage.toInt else 0) + toll later id

theorem toll_append (flights later : List Flight) (id : EntityId) :
    toll (flights ++ later) id = toll flights id + toll later id := by
  induction flights with
  | nil => exact (Int.zero_add _).symm
  | cons f flights ih => rw [List.cons_append, toll, toll, ih, Int.add_assoc]

/-- The entity after some flights: the damage that they do is taken from its health. -/
def Entity.after (flights : List Flight) (e : Entity) : Entity :=
  { e with health := .ofInt (e.health.toInt - toll flights e.id) }

namespace Entity

theorem after_nil (e : Entity) : e.after [] = e := by
  have same : Int32.ofInt (e.health.toInt - 0) = e.health := by
    rw [Int.sub_zero, Int32.ofInt_toInt]
  exact congrArg (fun health => { e with health }) same

theorem after_append (flights later : List Flight) (e : Entity) :
    e.after (flights ++ later) = (e.after flights).after later := by
  have same : Int32.ofInt (e.health.toInt - toll (flights ++ later) e.id) =
      Int32.ofInt ((Int32.ofInt (e.health.toInt - toll flights e.id)).toInt - toll later e.id) := by
    rw [toll_append, Int32.ofInt_sub _ (toll later e.id), Int32.ofInt_toInt, ← Int32.ofInt_sub]
    congr 1
    omega
  exact congrArg (fun health => { e with health }) same

theorem after_hit (p : Projectile) (id : EntityId) (e : Entity) :
    e.after [⟨p, some id⟩] = if e.id = id then e.damage p.damage else e := by
  split
  · rename_i same
    have hit : Int32.ofInt (e.health.toInt - toll [⟨p, some id⟩] e.id) = e.health - p.damage := by
      simp [toll, same, Int32.ofInt_sub, Int32.ofInt_toInt]
    exact congrArg (fun health => { e with health }) hit
  · rename_i other
    have missed : toll [⟨p, some id⟩] e.id = toll [] e.id := by
      simp [toll, Ne.symm other]
    rw [after, missed]
    exact e.after_nil

theorem after_miss (p : Projectile) (e : Entity) : e.after [⟨p, none⟩] = e :=
  e.after_nil

end Entity

/-- Each flight starts when the ones before it have ended, and hits what its projectile picks from where it has
got to. -/
def Aimed (radius : Binary32) (entities : List Entity) (flights : List Flight) : Prop :=
  ∀ (i : Nat) (f : Flight), flights[i]? = some f →
    f.projectile.moved.Picks radius (entities.map (Entity.after (flights.take i))) f.target

theorem Aimed.nil {radius : Binary32} {entities : List Entity} : Aimed radius entities [] := by
  intro i f found
  rw [List.getElem?_nil] at found
  cases found

theorem Aimed.cons {radius : Binary32} {entities : List Entity} {f : Flight} {later : List Flight}
    (first : f.projectile.moved.Picks radius entities f.target)
    (rest : Aimed radius (entities.map (Entity.after [f])) later) : Aimed radius entities (f :: later) := by
  intro i g found
  cases i with
  | zero =>
    cases found
    have same : Entity.after [] = id := funext Entity.after_nil
    rw [List.take_zero, same, List.map_id]
    exact first
  | succ i =>
    have after : Entity.after (f :: later.take i) = Entity.after (later.take i) ∘ Entity.after [f] :=
      funext (Entity.after_append [f] (later.take i))
    have picked := rest i g found
    rwa [List.map_map, ← after] at picked

namespace World

variable (settings : Settings)

theorem launch_spec (w : World) (p : Projectile)
    (sorted : (w.entities.map (·.id)).Pairwise (·.number < ·.number)) :
    ∃ target, p.moved.Picks settings.hitRadius w.entities target ∧
      w.launch settings p =
        ({ w with entities := w.entities.map (Entity.after [⟨p, target⟩]) }, Flight.rest? ⟨p, target⟩) := by
  refine ⟨_, p.moved.picks_target? settings.hitRadius sorted, ?_⟩
  unfold launch
  rw [← p.moved_eq_advance]
  dsimp only
  cases p.moved.target? settings.hitRadius w.entities with
  | none =>
    have same : Entity.after [⟨p, none⟩] = id := funext (Entity.after_miss p)
    rw [same, List.map_id]
    simp [Flight.rest?]
  | some id =>
    have same : Entity.after [⟨p, some id⟩] = fun e => if e.id = id then e.damage p.damage else e :=
      funext (Entity.after_hit p id)
    rw [same]
    rfl

theorem launchAll_spec (projectiles : List Projectile) (w : World)
    (sorted : (w.entities.map (·.id)).Pairwise (·.number < ·.number)) :
    ∃ flights : List Flight, flights.map (·.projectile) = projectiles ∧
      Aimed settings.hitRadius w.entities flights ∧
      launchAll settings projectiles w =
        ({ w with entities := w.entities.map (Entity.after flights) }, flights.filterMap Flight.rest?) := by
  induction projectiles generalizing w with
  | nil =>
    refine ⟨[], rfl, .nil, ?_⟩
    have same : Entity.after [] = id := funext Entity.after_nil
    rw [same, List.map_id]
    rfl
  | cons p rest ih =>
    obtain ⟨target, picked, launched⟩ := launch_spec settings w p sorted
    obtain ⟨later, each, aimed, flown⟩ := ih { w with entities := w.entities.map (Entity.after [⟨p, target⟩]) }
      (by rwa [List.map_map])
    refine ⟨⟨p, target⟩ :: later, congrArg (p :: ·) each, .cons picked aimed, ?_⟩
    have after : Entity.after (⟨p, target⟩ :: later) = Entity.after later ∘ Entity.after [⟨p, target⟩] :=
      funext (Entity.after_append [⟨p, target⟩] later)
    rw [launchAll, launched]
    dsimp only
    rw [flown, after, ← List.map_map, List.filterMap_cons]
    cases Flight.rest? ⟨p, target⟩ <;> rfl

variable {settings}

theorem integrate_of_launchAll {w v : World} {flying : List Projectile}
    (launched : launchAll settings w.projectiles w = (v, flying)) :
    w.integrate settings = (v.destroyed, v.destroyed.foldl despawn { v with projectiles := flying }) := by
  rw [integrate, launched]

theorem destroyed_iff {w : World} (distinct : (w.entities.map (·.id)).Nodup) {e : Entity} (there : e ∈ w.entities) :
    e.id ∈ w.destroyed ↔ e.health ≤ 0 := by
  constructor
  · intro member
    obtain ⟨q, found, same⟩ := List.mem_map.mp member
    obtain ⟨there', low⟩ := List.mem_filter.mp found
    obtain rfl := eq_of_id distinct there there' same
    exact of_decide_eq_true low
  · intro low
    exact List.mem_map_of_mem (List.mem_filter.mpr ⟨there, decide_eq_true low⟩)

variable (settings) in
/-- The hits in a tick are accounted for by some flights: each projectile hits what it picks when its turn has
come. Every entity then has lost what the flights take from it, as far as a number of its health's size can
say. Those without health left are gone, with what they have put on the panel, and the others are as they
were. -/
structure Accounted (w : World) (flights : List Flight) : Prop where
  each : flights.map (·.projectile) = w.projectiles
  aimed : Aimed settings.hitRadius w.entities flights
  foes : ∀ f ∈ flights, ∀ e ∈ w.entities, f.target = some e.id → e.team ≠ f.projectile.team
  exact : ∀ e ∈ w.entities, ∀ i, Int32.minValue.toInt ≤ e.health.toInt - toll (flights.take i) e.id →
    e.health.toInt - toll (flights.take i) e.id ≤ Int32.maxValue.toInt →
    (e.after (flights.take i)).health.toInt = e.health.toInt - toll (flights.take i) e.id
  destroyed : (w.integrate settings).1 =
    ((w.entities.map (Entity.after flights)).filter (·.health ≤ 0)).map (·.id)
  remains : (w.integrate settings).2 = { w with
    entities := (w.entities.map (Entity.after flights)).filter (0 < ·.health)
    projectiles := flights.filterMap Flight.rest?
    panel := { w.panel with
      elements := w.panel.elements.filter (·.2.owner ∉ (w.integrate settings).1) } }

theorem foe_of_aimed {w : World} {radius : Binary32} {flights : List Flight}
    (distinct : (w.entities.map (·.id)).Nodup) (aimed : Aimed radius w.entities flights) {f : Flight}
    (member : f ∈ flights) {e : Entity} (there : e ∈ w.entities) (hit : f.target = some e.id) :
    e.team ≠ f.projectile.team := by
  obtain ⟨i, found⟩ := List.getElem?_of_mem member
  have picked := aimed i f found
  rw [hit] at picked
  obtain ⟨_, there', same, ⟨foe, _⟩, _⟩ := picked
  obtain ⟨q, inside, rfl⟩ := List.mem_map.mp there'
  obtain rfl := eq_of_id distinct there inside same
  exact foe

/-- Projectiles are moved in their order, each by its velocity. It then hits at most one entity: of those that
are not of its team, have health left then and are within the radius of its new place, the nearest one, and of
several the one with the lowest number. It is gone then, and otherwise it flies on while it has more than the
tick that it has just used. -/
theorem hits_are_accounted_for (settings : Settings) (w : World)
    (sorted : (w.entities.map (·.id)).Pairwise (·.number < ·.number)) :
    ∃ flights, Accounted settings w flights := by
  obtain ⟨flights, each, aimed, flown⟩ := launchAll_spec settings w.projectiles w sorted
  have distinct := nodup_of_sorted sorted
  have struck : ((w.entities.map (Entity.after flights)).map (·.id)).Nodup := by rwa [List.map_map]
  have result := integrate_of_launchAll flown
  refine ⟨flights, each, aimed, fun f member e there hit => foe_of_aimed distinct aimed member there hit,
    fun e there i low high => Int32.toInt_ofInt_of_le low (Int.lt_add_one_of_le high), ?_, ?_⟩
  · rw [result]
    rfl
  · rw [result, foldl_despawn]
    have kept : (w.entities.map (Entity.after flights)).filter (·.id ∉ destroyed
        { w with entities := w.entities.map (Entity.after flights) }) =
        (w.entities.map (Entity.after flights)).filter (0 < ·.health) := by
      refine List.filter_congr fun e there => decide_eq_decide.mpr ?_
      rw [destroyed_iff struck there]
      exact Int32.not_le
    rw [← kept]

/-- Two passive things at one place, with 30 units of health each, and projectiles that end at that place or far
from it. The first one is there already and does as much damage as the first thing can take; the second one
starts too far away to hit anything from there. Of the others one has used its last tick. -/
def skirmish : World where
  entities := [.build { maxHealth := 30 } ⟨1⟩ { team := ⟨1⟩, passive := true, pose := ⟨⟨8, 0⟩, 0⟩ },
    .build { maxHealth := 30 } ⟨2⟩ { team := ⟨1⟩, passive := true, pose := ⟨⟨8, 0⟩, 0⟩ }]
  nextId := 3
  projectiles := [⟨⟨9⟩, ⟨2⟩, ⟨8, 0⟩, .zero, 5, 30⟩, ⟨⟨9⟩, ⟨2⟩, .zero, ⟨8, 0⟩, 1, 20⟩,
    ⟨⟨9⟩, ⟨2⟩, ⟨100, 0⟩, ⟨8, 0⟩, 2, 20⟩, ⟨⟨9⟩, ⟨2⟩, ⟨100, 0⟩, ⟨8, 0⟩, 1, 20⟩]

theorem skirmish_destroys_one :
    (skirmish.entities.map (·.id)).Pairwise (·.number < ·.number) ∧
      (skirmish.integrate {}).1 = [⟨1⟩] ∧ (skirmish.integrate {}).2.entities.map (·.health) = [10] ∧
      (skirmish.integrate {}).2.projectiles = [⟨⟨9⟩, ⟨2⟩, ⟨108, 0⟩, ⟨8, 0⟩, 1, 20⟩] ∧
      ∃ flights, Accounted {} skirmish flights :=
  ⟨by decide, by decide +kernel, by decide +kernel, by decide +kernel,
    hits_are_accounted_for {} skirmish (by decide)⟩

end World

end RobotArena
