import RobotArena.Memory.Basic
import RobotArena.Memory.Layout

/-!
# Attachment registers

A robot carries at most one attachment, and the registers from `Layout.attachmentBase` on are
that attachment's.
-/

namespace RobotArena

/-- What a robot can carry. -/
inductive AttachmentKind where
  | none
  | turret
  | extractor
  | transporter
  | facility
  deriving DecidableEq, Inhabited, Repr

namespace AttachmentKind

/-- Every kind. -/
def all : List AttachmentKind :=
  [none, turret, extractor, transporter, facility]

/-- The word for the kind. -/
def word : AttachmentKind → String
  | none => "none"
  | turret => "turret"
  | extractor => "extractor"
  | transporter => "transporter"
  | facility => "facility"

/-- The kind that a word stands for. -/
def ofWord? (w : String) : Option AttachmentKind :=
  all.find? (·.word == w)

end AttachmentKind

namespace Memory

/-! ### Turret -/

/-- The wanted angle of the turret. -/
def turretTarget (m : Memory) : Binary32 :=
  m.numberAt Layout.turretTargetAngle

/-- Whether a shot is asked for. -/
def shootRequested (m : Memory) : Bool :=
  m.byte Layout.turretShoot != 0

/-- Takes the request for a shot away. -/
def clearShoot (m : Memory) : Memory :=
  m.setByte Layout.turretShoot 0

/-- Shows the turret's angle and its cooldown. -/
def showTurret (m : Memory) (angle : Binary32) (cooldown : UInt32) : Memory :=
  (m.setNumber Layout.turretAngle angle).setWord Layout.turretCooldown cooldown

/-! ### Extractor -/

/-- Whether an extraction is asked for. -/
def extractionRequested (m : Memory) : Bool :=
  m.byte Layout.extractorRequest != 0

/-- Takes the request for an extraction away. -/
def clearExtraction (m : Memory) : Memory :=
  m.setByte Layout.extractorRequest 0

/-- Shows how an extraction ended. -/
def setExtractorStatus (m : Memory) (status : UInt8) : Memory :=
  m.setByte Layout.extractorStatus status

/-- Shows the stored units and the room for them. -/
def showStorage (m : Memory) (stored capacity : UInt32) : Memory :=
  (m.setWord Layout.extractorStored stored).setWord Layout.extractorCapacity capacity

/-! ### Transporter -/

/-- The transfer asked for; zero if there is none. -/
def transferCommand (m : Memory) : UInt8 :=
  m.byte Layout.transporterCommand

/-- Takes the request for a transfer away. -/
def clearTransfer (m : Memory) : Memory :=
  m.setByte Layout.transporterCommand 0

/-- Shows how a transfer ended: its status, the units on board and the other side. -/
def showTransfer (m : Memory) (status : UInt8) (amount partner : UInt32) : Memory :=
  ((m.setByte Layout.transporterStatus status).setWord Layout.transporterAmount
    amount).setWord Layout.transporterPartner partner

/-! ### Facility -/

/-- The operation asked for; zero if there is none. -/
def facilityOp (m : Memory) : UInt8 :=
  m.byte Layout.facilityOp

/-- The bytes of the hash register. -/
def facilityHash (m : Memory) : List UInt8 :=
  m.bytesAt Layout.facilityHash Layout.hashSize

theorem length_facilityHash (m : Memory) : m.facilityHash.length = 32 :=
  m.length_bytesAt _ _

/-- Replaces the hash register. -/
def setFacilityHash (m : Memory) (hash : List UInt8) : Memory :=
  m.setBytes Layout.facilityHash hash

/-- Shows how an operation ended, which ends the request. -/
def answerFacility (m : Memory) (status : UInt8) : Memory :=
  (m.setByte Layout.facilityStatus status).setByte Layout.facilityOp 0

/-- Shows how many technologies are queued. -/
def setQueueLength (m : Memory) (length : UInt32) : Memory :=
  m.setWord Layout.facilityQueueLength length

end Memory

end RobotArena
