import RobotArena.World.Entity

/-!
# The world

The entities, the deposits that extractors draw from, the projectiles in flight, the panel and
the sketch. Entities stand in the order of their numbers, and a number is never given twice.
-/

namespace RobotArena

/-- Resources at a point. -/
structure Deposit where
  position : Vec2
  amount : UInt32
  deriving DecidableEq, Repr

/-- A projectile in flight: its displacement in a tick and the ticks it has left. -/
structure Projectile where
  owner : EntityId
  team : TeamId
  position : Vec2
  velocity : Vec2
  remaining : UInt32
  damage : Int32
  deriving DecidableEq, Repr

/-- Everything in the arena. -/
structure World where
  entities : List Entity := []
  nextId : UInt32 := 1
  deposits : List Deposit := []
  projectiles : List Projectile := []
  panel : Panel := {}
  sketch : Sketch := {}

namespace World

/-- The entity with a number. -/
def find? (w : World) (id : EntityId) : Option Entity :=
  w.entities.find? (·.id = id)

/-- Changes the entity with a number. -/
def modify (w : World) (id : EntityId) (change : Entity → Entity) : World :=
  { w with entities := w.entities.map fun e => if e.id = id then change e else e }

/-- Changes every entity. -/
def mapEntities (w : World) (change : Entity → Entity) : World :=
  { w with entities := w.entities.map change }

/-- Adds an entity. -/
def spawn (w : World) (settings : Settings) (b : Blueprint) : EntityId × World :=
  let id : EntityId := ⟨w.nextId⟩
  (id, { w with entities := w.entities ++ [.build settings id b], nextId := w.nextId + 1 })

/-- Removes an entity, and the elements that it put on the panel. -/
def despawn (w : World) (id : EntityId) : World :=
  { w with
    entities := w.entities.filter (·.id ≠ id)
    panel := w.panel.removeOwner id }

/-- Adds a deposit. -/
def addDeposit (w : World) (d : Deposit) : World :=
  { w with deposits := w.deposits ++ [d] }

end World

/-- Of some things with their distances, the nearest one; the first of several. -/
def nearest? {α : Type} (candidates : List (Binary32 × α)) : Option α :=
  (candidates.foldl closer none).map (·.2)
where
  closer : Option (Binary32 × α) → Binary32 × α → Option (Binary32 × α)
    | none, c => some c
    | some best, c => if best.1.placeLe c.1 then some best else some c

end RobotArena
