import RobotArena.Machine.Processor
import RobotArena.Settings.Basic

/-!
# Entities

Everything that stands in the arena: robots with a processor, and passive things that can be shot
at or traded with. `Blueprint` says what an entity is to be like, `Entity.build` makes it.
-/

namespace RobotArena

/-- What an entity carries, with its state. A turret's angle is a direction of the world, and its
cooldown counts the ticks until it may fire again. -/
inductive Attachment where
  | none
  | turret (angle : Binary32) (cooldown : UInt32)
  | extractor (stored capacity : UInt32)
  | transporter (cargo capacity : UInt32)
  | facility (stored : UInt32) (queue researched : List TechHash)
  deriving DecidableEq

namespace Attachment

/-- A new attachment. -/
def ofKind (settings : Settings) : AttachmentKind → Attachment
  | .none => none
  | .turret => turret 0 0
  | .extractor => extractor 0 settings.extractorCapacity
  | .transporter => transporter 0 settings.transporterCapacity
  | .facility => facility 0 [] []

/-- The kind of an attachment. -/
def kind : Attachment → AttachmentKind
  | none => .none
  | turret .. => .turret
  | extractor .. => .extractor
  | transporter .. => .transporter
  | facility .. => .facility

theorem kind_ofKind (settings : Settings) (k : AttachmentKind) : (ofKind settings k).kind = k := by
  cases k <;> rfl

end Attachment

/-- Something that stands in the arena. A radar is given by the range it can reach. -/
structure Entity where
  id : EntityId
  team : TeamId
  pose : Pose
  health : Int32
  drive : Bool
  radar : Option Binary32
  attachment : Attachment
  processor : Option Processor
  pendrive : Option Pendrive

/-- What an entity is to be like. -/
structure Blueprint where
  team : TeamId
  pose : Pose := ⟨.zero, 0⟩
  program : Option SourceId := none
  passive : Bool := false
  drive : Bool := false
  radar : Bool := false
  attachment : AttachmentKind := .none
  pendrive : Bool := false

namespace Entity

/-- Makes an entity. -/
def build (settings : Settings) (id : EntityId) (b : Blueprint) : Entity where
  id
  team := b.team
  pose := b.pose
  health := settings.maxHealth
  drive := b.drive
  radar := if b.radar then some settings.radarRange else none
  attachment := .ofKind settings b.attachment
  processor :=
    if b.passive then none else some (.create b.attachment settings.queues b.program)
  pendrive := if b.pendrive then some (.ofCount settings.pendriveBlocks) else none

/-- Where the entity is. -/
def position (e : Entity) : Vec2 :=
  e.pose.position

/-- Changes the memory of the entity's processor. -/
def onMemory (f : Memory → Memory) (e : Entity) : Entity :=
  { e with processor := e.processor.map fun p => { p with memory := f p.memory } }

end Entity

end RobotArena
