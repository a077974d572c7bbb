import RobotArena.Memory.Chassis
import RobotArena.World.Basic

/-!
# Sensing

A radar that has been asked reports the nearest other entities and deposits within its range.
-/

namespace RobotArena

/-- What can be seen of an entity. -/
structure Blip where
  id : EntityId
  team : TeamId
  position : Vec2
  deriving DecidableEq, Repr

namespace Radar

/-- The range of a scan. A wanted range that is not finite and positive means all of it. -/
def range (hardware wanted : Binary32) : Binary32 :=
  if wanted.isFinite && Binary32.lt 0 wanted then wanted.lesser hardware else hardware

/-- A blip as it looks to a team. -/
def contactOfBlip (team : TeamId) (b : Blip) : Contact :=
  ⟨b.position, (if b.team = team then ContactClass.ally else ContactClass.enemy).code⟩

/-- What a robot could see at any distance: other entities, then deposits that hold something. -/
def visible (blips : List Blip) (deposits : List Deposit) (e : Entity) : List Contact :=
  (blips.filter (·.id ≠ e.id)).map (contactOfBlip e.team) ++
    (deposits.filter (0 < ·.amount)).map fun d => ⟨d.position, ContactClass.resource.code⟩

/-- The contacts within a range of a point, nearest first. -/
def scan (origin : Vec2) (range : Binary32) (contacts : List Contact) : List Contact :=
  let measured := contacts.map fun c => (origin.distance c.position, c)
  let seen := measured.filter fun (d, _) => d.le range
  (seen.mergeSort fun a b => a.1.placeLe b.1).map (·.2)

/-- Answers a program that has asked the radar. -/
def answer (contacts : List Contact) (origin : Vec2) (hardware : Binary32) (m : Memory) :
    Memory :=
  if m.radarRequested then
    m.answerRadar (scan origin (range hardware m.radarRange) contacts)
  else m

end Radar

/-- Answers the entity's program if it has a radar and has asked it. -/
def Entity.sense (blips : List Blip) (deposits : List Deposit) (e : Entity) : Entity :=
  match e.radar with
  | none => e
  | some hardware =>
    e.onMemory (Radar.answer (Radar.visible blips deposits e) e.position hardware)

/-- Answers every program that has asked its radar. -/
def World.sense (w : World) : World :=
  let blips := w.entities.map fun e => (⟨e.id, e.team, e.position⟩ : Blip)
  w.mapEntities (Entity.sense blips w.deposits)

end RobotArena
