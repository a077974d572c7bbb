import RobotArena.Proofs.World.Passes

/-!
# How often turrets fire

A tick has one pass of the turrets, and a turret that has fired rests for as many of them as the settings say.
Whatever stands in the registers, between two of its shots there is at least that time, and a program that asks
for a shot after it gets one.
-/

namespace RobotArena

/-! ### One turret in one pass -/

namespace Memory

theorem shootRequested_iff (m : Memory) : m.shootRequested = true ↔ m.byte Layout.turretShoot ≠ 0 :=
  bne_iff_ne

theorem turretShoot_showTurret (m : Memory) (angle : Binary32) (cooldown : UInt32) :
    (m.clearShoot.showTurret angle cooldown).byte Layout.turretShoot = 0 := by
  have apart : Layout.turretShoot < Layout.turretAngle ∧ Layout.turretShoot < Layout.turretCooldown := by decide
  unfold showTurret setNumber setWord
  rw [byte_setBytes_outside _ _ (.inl apart.2), byte_setBytes_outside _ _ (.inl apart.1), clearShoot,
    byte_setByte, if_pos ⟨rfl, by decide⟩]

end Memory

/-- The ticks that a turret has to rest. -/
def Attachment.cooldown? : Attachment → Option UInt32
  | .turret _ cooldown => some cooldown
  | _ => Option.none

namespace Entity

/-- The ticks that an entity's turret has to rest, and the memory of the program that aims it. -/
def gun? (e : Entity) : Option (UInt32 × Memory) :=
  match e.attachment, e.processor with
  | .turret _ cooldown, some p => some (cooldown, p.memory)
  | _, _ => none

/-- The entity's program asks its turret for a shot. -/
def AsksToShoot (e : Entity) : Prop :=
  ∃ cooldown m, e.gun? = some (cooldown, m) ∧ m.byte Layout.turretShoot ≠ 0

/-- The number of an entity, and the ticks that its turret has to rest if a program aims it. -/
def rest (e : Entity) : EntityId × Option UInt32 :=
  (e.id, e.gun?.map (·.1))

theorem rest_eq_of_mount {e e' : Entity} (mount : e'.mount = e.mount) : e'.rest = e.rest := by
  have seen : ∀ e : Entity, e.rest =
      (e.mount.id, if e.mount.programmed then e.mount.attachment.cooldown? else none) := by
    intro e
    unfold rest gun? Entity.mount
    cases e.attachment <;> cases e.processor <;> rfl
  rw [seen, seen, mount]

variable (settings : Settings)

variable {settings} in
/-- A new turret may fire at once. -/
theorem cooldown_of_build {id : EntityId} {b : Blueprint} {cooldown : UInt32} {m : Memory}
    (gun : (build settings id b).gun? = some (cooldown, m)) : cooldown = 0 := by
  cases kind : b.attachment with
  | turret =>
    cases passive : b.passive with
    | true => simp [gun?, build, kind, passive, Attachment.ofKind] at gun
    | false =>
      simp only [gun?, build, kind, passive, Attachment.ofKind] at gun
      cases gun
      rfl
  | _ => simp [gun?, build, kind, Attachment.ofKind] at gun

theorem fire_of_none {e : Entity} (none : e.gun? = none) : e.fire settings = (e, .none) := by
  unfold fire
  split
  · rename_i turret known
    rw [gun?, turret, known] at none
    cases none
  · rfl

/-- What a pass does to a turret: it fires if it was asked to and has rested long enough, and the request is
gone in any case. -/
theorem fire_of_gun {e : Entity} {cooldown : UInt32} {m : Memory} (gun : e.gun? = some (cooldown, m)) :
    let fires := m.shootRequested && Turret.cooled cooldown == 0
    (∃ m', (e.fire settings).1.gun? =
        some (if fires then settings.turretCooldown else Turret.cooled cooldown, m') ∧
      m'.byte Layout.turretShoot = 0) ∧
    ∃ angle, (e.fire settings).2 = if fires then some (Turret.projectile settings e angle) else none := by
  unfold gun? at gun
  split at gun
  · rename_i angle cooldown p turret known
    cases gun
    unfold fire
    rw [turret, known]
    dsimp only
    refine ⟨?_, _, rfl⟩
    simp only [gun?, onMemory, Option.map_some]
    exact ⟨_, rfl, p.memory.turretShoot_showTurret _ _⟩
  · cases gun

theorem id_fire (e : Entity) : (e.fire settings).1.id = e.id := by
  unfold fire
  split <;> rfl

theorem owner_of_fire {e : Entity} {shot : Projectile} (fired : (e.fire settings).2 = some shot) :
    shot.owner = e.id := by
  cases gun : e.gun? with
  | none =>
    rw [fire_of_none settings gun] at fired
    cases fired
  | some g =>
    obtain ⟨_, angle, same⟩ := fire_of_gun settings gun
    rw [same] at fired
    split at fired
    · cases fired
      rfl
    · cases fired

end Entity

/-! ### All turrets in one pass -/

namespace World

variable (settings : Settings) {w : World}

theorem watches_rest : Watches .turret Entity.rest where
  mount _ _ := Entity.rest_eq_of_mount
  turret other := absurd rfl other
  facility _ settings technologies e := by
    unfold Entity.rest Entity.gun? Entity.research
    cases attachment : e.attachment with
    | facility stored queue researched => cases e.processor <;> rfl
    | _ => simp only [attachment]

/-- The projectiles that a pass of the turrets adds for an entity. -/
def shots (w : World) (id : EntityId) : List Projectile :=
  ((w.fire settings).projectiles.drop w.projectiles.length).filter (·.owner = id)

theorem shots_eq_filterMap (id : EntityId) :
    w.shots settings id = (w.entities.filter (·.id = id)).filterMap fun e => (e.fire settings).2 := by
  have added : (w.fire settings).projectiles.drop w.projectiles.length =
      w.entities.filterMap fun e => (e.fire settings).2 := by
    unfold fire
    dsimp only
    rw [List.drop_left, List.filterMap_map]
    rfl
  unfold shots
  rw [added, List.filter_filterMap, List.filterMap_filter]
  refine List.filterMap_congr fun e _ => ?_
  cases fired : (e.fire settings).2 with
  | none => exact (ite_self _).symm
  | some shot => rw [Option.filter_some, Entity.owner_of_fire settings fired]

theorem shots_of_mem (distinct : (w.entities.map (·.id)).Nodup) {e : Entity} (there : e ∈ w.entities) :
    w.shots settings e.id = (e.fire settings).2.toList := by
  rw [shots_eq_filterMap, filter_id distinct there]
  cases fired : (e.fire settings).2 with
  | none => exact List.filterMap_cons_none fired
  | some shot => exact List.filterMap_cons_some fired

theorem shots_of_absent {id : EntityId} (absent : id ∉ w.entities.map (·.id)) :
    w.shots settings id = [] := by
  rw [shots_eq_filterMap, filter_id_of_absent absent]
  rfl

/-- An entity has fired if a turret is there that was asked to fire and has rested long enough. -/
theorem shots_ne_nil_iff (distinct : (w.entities.map (·.id)).Nodup) (id : EntityId) :
    w.shots settings id ≠ [] ↔ ∃ e ∈ w.entities, e.id = id ∧ ∃ cooldown m, e.gun? = some (cooldown, m) ∧
      m.byte Layout.turretShoot ≠ 0 ∧ cooldown.toNat ≤ 1 := by
  have rested : ∀ cooldown, Turret.cooled cooldown = 0 ↔ cooldown.toNat ≤ 1 := by
    intro cooldown
    rw [← UInt32.toNat_inj, Turret.toNat_cooled]
    exact Nat.sub_eq_zero_iff_le
  constructor
  · intro fired
    by_cases member : id ∈ w.entities.map (·.id)
    · obtain ⟨e, there, rfl⟩ := List.mem_map.mp member
      rw [shots_of_mem settings distinct there] at fired
      cases gun : e.gun? with
      | none =>
        rw [Entity.fire_of_none settings gun] at fired
        exact absurd rfl fired
      | some g =>
        obtain ⟨_, angle, same⟩ := Entity.fire_of_gun settings gun
        rw [same] at fired
        split at fired
        · rename_i ready
          rw [Bool.and_eq_true, Memory.shootRequested_iff, beq_iff_eq, rested] at ready
          exact ⟨e, there, rfl, g.1, g.2, gun, ready⟩
        · exact absurd rfl fired
    · exact absurd (shots_of_absent settings member) fired
  · rintro ⟨e, there, rfl, cooldown, m, gun, asked, long⟩
    obtain ⟨_, angle, same⟩ := Entity.fire_of_gun settings gun
    have ready : (m.shootRequested && Turret.cooled cooldown == 0) = true := by
      rw [Bool.and_eq_true, Memory.shootRequested_iff, beq_iff_eq, rested]
      exact ⟨asked, long⟩
    rw [shots_of_mem settings distinct there, same, if_pos ready]
    exact List.cons_ne_nil _ _

/-! ### Pass after pass -/

/-- An entity fires in the pass with a number. -/
def Fires (passes : List World) (id : EntityId) (t : Nat) : Prop :=
  ∃ w, passes[t]? = some w ∧ w.shots settings id ≠ []

variable {settings} {passes : List World} {id : EntityId} {t : Nat}

theorem Fires.lt (fires : Fires settings passes id t) : t < passes.length := by
  obtain ⟨w, found, _⟩ := fires
  exact (List.getElem?_eq_some_iff.mp found).1

theorem fires_concat :
    Fires settings (passes ++ [w]) id t ↔
      Fires settings passes id t ∨ t = passes.length ∧ w.shots settings id ≠ [] := by
  constructor
  · rintro ⟨v, found, fired⟩
    rcases Nat.lt_or_ge t passes.length with old | new
    · rw [List.getElem?_append_left old] at found
      exact .inl ⟨v, found, fired⟩
    · rw [List.getElem?_append_right new, List.getElem?_singleton] at found
      split at found
      · cases found
        exact .inr ⟨by omega, fired⟩
      · cases found
  · rintro (⟨v, found, fired⟩ | ⟨rfl, fired⟩)
    · obtain ⟨old, _⟩ := List.getElem?_eq_some_iff.mp found
      exact ⟨v, (List.getElem?_append_left old).trans found, fired⟩
    · exact ⟨w, List.getElem?_concat_length, fired⟩

theorem fires_take {n : Nat} (before : t < n) :
    Fires settings (passes.take n) id t ↔ Fires settings passes id t := by
  unfold Fires
  rw [List.getElem?_take_of_lt before]

end World

/-- How long a turret has to rest when some passes have gone by: long enough since each of its shots, and no
longer than the latest one makes it. -/
structure Turret.Rested (limit passed left : Nat) (fires : Nat → Prop) : Prop where
  enough : ∀ t, fires t → limit + t < left + passed
  due : left = 0 ∨ ∃ t, fires t ∧ left + passed ≤ limit + t + 1

namespace Turret.Rested

variable {limit passed left : Nat} {fires fires' : Nat → Prop}

theorem new (none : ∀ t, ¬fires t) : Rested limit passed 0 fires :=
  ⟨fun t fired => absurd fired (none t), .inl rfl⟩

theorem fired (old : ∀ t, fires t → t < passed) (now : ∀ t, fires' t ↔ fires t ∨ t = passed) :
    Rested limit (passed + 1) limit fires' := by
  refine ⟨fun t fired => ?_, .inr ⟨passed, (now passed).mpr (.inr rfl), Nat.le_refl _⟩⟩
  rcases (now t).mp fired with before | rfl
  · have := old t before
    omega
  · omega

theorem waited (h : Rested limit passed left fires) (now : ∀ t, fires' t ↔ fires t) :
    Rested limit (passed + 1) (left - 1) fires' := by
  refine ⟨fun t fired => ?_, ?_⟩
  · have := h.enough t ((now t).mp fired)
    omega
  · rcases h.due with none | ⟨t, fired, late⟩
    · exact .inl (by omega)
    · by_cases last : left = 0
      · exact .inl (by omega)
      · exact .inr ⟨t, (now t).mpr fired, by omega⟩

end Turret.Rested

namespace World

variable {settings : Settings} {technologies : List TechHash} {w : World} {passes : List World}

variable (settings) in
/-- A turret that a program aims has the rest that its shots so far have left it. -/
def Rests (passes : List World) (x : EntityId × Option UInt32) : Prop :=
  ∀ left, x.2 = some left →
    Turret.Rested settings.turretCooldown.toNat passes.length left.toNat (Fires settings passes x.1)

variable (settings) in
/-- Every turret is at rest after its shots, and nothing has fired that is not there yet. -/
abbrev Paced : List World → World → Prop :=
  Tracks Entity.rest (Rests settings) fun passes id => ∀ t, ¬Fires settings passes id t

theorem Rests.rested {e : Entity} (h : Rests settings passes e.rest) {cooldown : UInt32} {m : Memory}
    (gun : e.gun? = some (cooldown, m)) :
    Turret.Rested settings.turretCooldown.toNat passes.length cooldown.toNat (Fires settings passes e.id) := by
  refine h cooldown ?_
  rw [Entity.rest, gun]
  rfl

theorem Rests.fire {e : Entity} (h : Rests settings passes e.rest) (distinct : (w.entities.map (·.id)).Nodup)
    (there : e ∈ w.entities) : Rests settings (passes ++ [w]) (e.fire settings).1.rest := by
  intro left known
  obtain ⟨⟨left, m'⟩, aimed, rfl⟩ := Option.map_eq_some_iff.mp known
  cases gun : e.gun? with
  | none =>
    rw [Entity.fire_of_none settings gun] at aimed
    cases gun.symm.trans aimed
  | some g =>
    obtain ⟨cooldown, m⟩ := g
    obtain ⟨⟨_, after, _⟩, angle, shot⟩ := Entity.fire_of_gun settings gun
    have fires : ∀ t, Fires settings (passes ++ [w]) e.id t ↔
        Fires settings passes e.id t ∨ t = passes.length ∧ w.shots settings e.id ≠ [] := fun t => fires_concat
    rw [shots_of_mem settings distinct there, shot] at fires
    rw [Entity.rest, Entity.id_fire, List.length_append]
    cases aimed.symm.trans after
    split
    · rw [if_pos ‹_›] at fires
      exact .fired (fun t => Fires.lt) fun t => by simpa using fires t
    · rw [if_neg ‹_›] at fires
      rw [Turret.toNat_cooled]
      exact (h.rested gun).waited fun t => by simpa using fires t

theorem Paced.pass (h : Paced settings passes w) (orderly : w.Orderly) :
    Paced settings (passes ++ [w]) (w.fire settings) := by
  constructor
  · intro x seen
    obtain ⟨e, there, rfl⟩ : ∃ e ∈ w.entities, (e.fire settings).1 = x := by
      simpa only [fire, List.mem_map, List.map_map, Function.comp_apply] using seen
    exact (h.fits e there).fire orderly.distinct there
  · intro id new t fires
    rcases fires_concat.mp fires with before | ⟨_, shot⟩
    · exact h.fresh id new t before
    · exact shot (shots_of_absent settings (orderly.absent_of_new new))

theorem rests_of_build {id : EntityId} (none : ∀ t, ¬Fires settings passes id t) (b : Blueprint) :
    Rests settings passes (Entity.build settings id b).rest := by
  intro left known
  obtain ⟨⟨cooldown, m⟩, gun, rfl⟩ := Option.map_eq_some_iff.mp known
  obtain rfl := Entity.cooldown_of_build gun
  exact .new none

variable (settings) in
/-- A pass of the turrets adds projectiles behind those that are there, at most one for each turret and only
where its program has asked for it, and takes all requests away. -/
structure Volley (w : World) : Prop where
  adds : w.projectiles <+: (w.fire settings).projectiles
  single : ∀ id, (w.shots settings id).length ≤ 1
  asked : ∀ id, w.shots settings id ≠ [] → ∃ e ∈ w.entities, e.id = id ∧ e.AsksToShoot
  cleared : ∀ e ∈ w.entities, e.gun?.isSome → ∃ e' cooldown m, (w.fire settings).find? e.id = some e' ∧
    e'.gun? = some (cooldown, m) ∧ m.byte Layout.turretShoot = 0

theorem Orderly.volley (orderly : w.Orderly) : w.Volley settings where
  adds := List.prefix_append _ _
  single id := by
    by_cases member : id ∈ w.entities.map (·.id)
    · obtain ⟨e, there, rfl⟩ := List.mem_map.mp member
      rw [shots_of_mem settings orderly.distinct there]
      exact Option.length_toList_le
    · rw [shots_of_absent settings member]
      exact Nat.zero_le 1
  asked id fired := by
    obtain ⟨e, there, same, cooldown, m, gun, asked, _⟩ := (shots_ne_nil_iff settings orderly.distinct id).mp fired
    exact ⟨e, there, same, cooldown, m, gun, asked⟩
  cleared e there aimed := by
    obtain ⟨⟨cooldown, m⟩, gun⟩ := Option.isSome_iff_exists.mp aimed
    obtain ⟨⟨m', after, gone⟩, _⟩ := Entity.fire_of_gun settings gun
    have distinct : ((w.fire settings).entities.map (·.id)).Nodup :=
      (orderly.happen settings [] (.device .turret)).distinct
    have there' : (e.fire settings).1 ∈ (w.fire settings).entities :=
      List.mem_map_of_mem (List.mem_map_of_mem there)
    have found := find?_of_mem distinct there'
    rw [Entity.id_fire] at found
    exact ⟨_, _, m', found, after, gone⟩

variable (settings technologies) in
theorem paced_passes (events : List Event) :
    let passes := World.passes settings technologies .turret {} events
    ∀ (t : Nat) (w : World), passes[t]? = some w → w.Orderly ∧ Paced settings (passes.take t) w := by
  have start : ∀ id t, ¬Fires settings [] id t := fun _ _ => nofun
  exact (watches_rest.tracks (fun _ _ orderly (paced : Paced settings _ _) => paced.pass orderly)
    (fun _ _ b none => rests_of_build none b) start events).2

/-- Whatever else happens in a world, a pass of the turrets adds at most one projectile for each turret that a
program aims, and only where the program has asked for it; the request is gone afterwards. Two shots of the
same turret are as many passes apart as the settings say, and at least one, and a turret that is asked to fire
when its last shot is that long ago, or that has never fired, fires. A tick of an arena has exactly one pass, by
`Arena.one_pass_of_tick`, so that passes are ticks. A course adds no robot with the last number, where an arena
ends. -/
theorem turrets_keep_their_rate (settings : Settings) (technologies : List TechHash) (events : List Event) :
    let passes := World.passes settings technologies .turret {} events
    (∀ w ∈ passes, w.Volley settings) ∧
    (∀ id t u, t < u → Fires settings passes id t → Fires settings passes id u →
      max settings.turretCooldown.toNat 1 ≤ u - t) ∧
    ∀ u w, passes[u]? = some w → ∀ e ∈ w.entities, e.AsksToShoot →
      (∀ t < u, Fires settings passes e.id t → settings.turretCooldown.toNat ≤ u - t) →
      Fires settings passes e.id u := by
  intro passes
  have paced := paced_passes settings technologies events
  have length : ∀ {t : Nat} {w : World}, passes[t]? = some w → (passes.take t).length = t := by
    intro t w found
    obtain ⟨inside, _⟩ := List.getElem?_eq_some_iff.mp found
    exact List.length_take_of_le (Nat.le_of_lt inside)
  refine ⟨fun w member => ?_, fun id t u before first second => ?_, fun u w found e there asks far => ?_⟩
  · obtain ⟨t, found⟩ := List.getElem?_of_mem member
    obtain ⟨orderly, _⟩ := paced t w found
    exact orderly.volley
  · obtain ⟨w, found, fired⟩ := second
    obtain ⟨orderly, paced⟩ := paced u w found
    obtain ⟨e, there, rfl, cooldown, m, gun, _, ready⟩ :=
      (shots_ne_nil_iff settings orderly.distinct id).mp fired
    have enough := ((paced.fits _ there).rested gun).enough t ((fires_take before).mpr first)
    rw [length found] at enough
    omega
  · obtain ⟨orderly, paced⟩ := paced u w found
    obtain ⟨cooldown, m, gun, asked⟩ := asks
    have ready : cooldown.toNat ≤ 1 := by
      rcases ((paced.fits _ there).rested gun).due with none | ⟨t, fired, late⟩
      · omega
      · have before := fired.lt
        rw [length found] at before late
        have ago := far t before ((fires_take before).mp fired)
        omega
    exact ⟨w, found, (shots_ne_nil_iff settings orderly.distinct e.id).mpr
      ⟨e, there, rfl, cooldown, m, gun, asked, ready⟩⟩

/-- A turret whose program asks for a shot in each of two passes. -/
def impatient : List Event :=
  let asks : Event := .tend fun _ p => { p with memory := p.memory.setByte Layout.turretShoot 1 }
  [.spawn { team := ⟨1⟩, attachment := .turret }, asks, .device .turret, asks, .device .turret]

theorem impatient_turret_fires_once :
    let passes := World.passes { turretCooldown := 2 } [] .turret {} impatient
    Fires { turretCooldown := 2 } passes ⟨1⟩ 0 ∧ ¬Fires { turretCooldown := 2 } passes ⟨1⟩ 1 := by
  intro passes
  obtain ⟨_, apart, fires⟩ := turrets_keep_their_rate { turretCooldown := 2 } [] impatient
  have asked : ∀ m : Memory, (m.setByte Layout.turretShoot 1).byte Layout.turretShoot ≠ 0 := by
    intro m
    rw [Memory.byte_setByte, if_pos ⟨rfl, by decide⟩]
    decide
  have first : Fires { turretCooldown := 2 } passes ⟨1⟩ 0 :=
    fires 0 _ rfl _ List.mem_cons_self ⟨_, _, rfl, asked _⟩ fun t none => absurd none (Nat.not_lt_zero t)
  exact ⟨first, fun second => absurd (apart ⟨1⟩ 0 1 Nat.zero_lt_one first second) (by decide)⟩

end World

end RobotArena
