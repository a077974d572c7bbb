import RobotArena.Memory.Attachment
import RobotArena.World.Basic

/-!
# Combat

Turrets aim and fire; projectiles fly and hit. An entity without health left is destroyed.
-/

namespace RobotArena

/-! ### Turrets -/

namespace Turret

/-- A projectile that leaves a robot in a direction. -/
def projectile (settings : Settings) (e : Entity) (angle : Binary32) : Projectile where
  owner := e.id
  team := e.team
  position := e.position
  velocity := (Vec2.ofAngle angle).scale settings.projectileSpeed
  remaining := settings.projectileLifetime
  damage := settings.projectileDamage

/-- The angle after a tick. A wanted angle that is not finite is passed over. -/
def aimed (settings : Settings) (m : Memory) (angle : Binary32) : Binary32 :=
  if m.turretTarget.isFinite then
    Angle.towards angle m.turretTarget settings.turretTurnRate
  else angle

/-- One less, but not less than zero. -/
def cooled (ticks : UInt32) : UInt32 :=
  if ticks = 0 then 0 else ticks - 1

theorem toNat_cooled (ticks : UInt32) : (cooled ticks).toNat = ticks.toNat - 1 := by
  unfold cooled
  split
  · rename_i none
    rw [none]
    rfl
  · rename_i some
    have least : (1 : UInt32) ≤ ticks := by
      have positive : ticks.toNat ≠ 0 := fun zero => some (UInt32.toNat_inj.mp zero)
      rw [UInt32.le_iff_toNat_le]
      exact Nat.one_le_iff_ne_zero.mpr positive
    rw [UInt32.toNat_sub_of_le _ _ least]
    rfl

end Turret

/-- Aims and fires an entity's turret. A request to fire is taken even if it is too early. -/
def Entity.fire (settings : Settings) (e : Entity) : Entity × Option Projectile :=
  match e.attachment, e.processor with
  | .turret angle cooldown, some p =>
    let angle := Turret.aimed settings p.memory angle
    let cooldown := Turret.cooled cooldown
    let fires := p.memory.shootRequested && cooldown == 0
    let cooldown := if fires then settings.turretCooldown else cooldown
    let e := { e with attachment := .turret angle cooldown }
    (e.onMemory fun m => m.clearShoot.showTurret angle cooldown,
      if fires then some (Turret.projectile settings e angle) else none)
  | _, _ => (e, none)

/-- Aims and fires all turrets. -/
def World.fire (settings : Settings) (w : World) : World :=
  let fired := w.entities.map (Entity.fire settings)
  { w with
    entities := fired.map (·.1)
    projectiles := w.projectiles ++ fired.filterMap (·.2) }

/-! ### Projectiles -/

namespace Projectile

/-- The projectile a tick later. -/
def advance (p : Projectile) : Projectile :=
  { p with position := p.position + p.velocity, remaining := Turret.cooled p.remaining }

/-- Whether the projectile can hit an entity: one of another team that is not destroyed yet. -/
def threatens (p : Projectile) (e : Entity) : Bool :=
  e.team ≠ p.team && 0 < e.health

/-- The entity that the projectile hits: the nearest one within the radius. -/
def target? (p : Projectile) (radius : Binary32) (entities : List Entity) : Option EntityId :=
  let measured := (entities.filter p.threatens).map fun e =>
    (e.position.distance p.position, e.id)
  nearest? (measured.filter fun (d, _) => d.le radius)

end Projectile

/-- Takes health from an entity. -/
def Entity.damage (amount : Int32) (e : Entity) : Entity :=
  { e with health := e.health - amount }

namespace World

/-- Moves a projectile and lets it hit. Answers the projectile if it flies on. -/
def launch (settings : Settings) (w : World) (p : Projectile) : World × Option Projectile :=
  let p := p.advance
  match p.target? settings.hitRadius w.entities with
  | some id => (w.modify id (Entity.damage p.damage), none)
  | none => (w, if 0 < p.remaining then some p else none)

/-- Moves projectiles one after another. Answers those that fly on. -/
def launchAll (settings : Settings) : List Projectile → World → World × List Projectile
  | [], w => (w, [])
  | p :: rest, w =>
    let (w, flying?) := w.launch settings p
    let (w, flying) := launchAll settings rest w
    (w, flying?.toList ++ flying)

/-- The entities without health left. -/
def destroyed (w : World) : List EntityId :=
  (w.entities.filter (·.health ≤ 0)).map (·.id)

/-- Moves all projectiles and removes the entities that are destroyed. Answers which ones. -/
def integrate (settings : Settings) (w : World) : List EntityId × World :=
  let (w, projectiles) := launchAll settings w.projectiles w
  let gone := w.destroyed
  (gone, gone.foldl despawn { w with projectiles })

end World

end RobotArena
