import RobotArena.Memory.Basic
import RobotArena.Memory.Layout
import RobotArena.Geometry

/-!
# Navigation, drive and radar registers

The registers that every robot has. Navigation is written by the arena, the wanted speed and
heading by the program, and the radar's request by both.
-/

namespace RobotArena

/-- What the radar can see. -/
inductive ContactClass where
  | ally
  | enemy
  | resource
  deriving DecidableEq, Repr

/-- The number that stands for the class in a contact. -/
def ContactClass.code : ContactClass → UInt32
  | .ally => 1
  | .enemy => 2
  | .resource => 3

/-- A contact as the radar reports it. -/
structure Contact where
  position : Vec2
  code : UInt32
  deriving DecidableEq, Repr

/-- The bytes of a contact. -/
def Contact.encode (c : Contact) : List UInt8 :=
  Word.toBytes c.position.x.bits ++ Word.toBytes c.position.y.bits ++ Word.toBytes c.code

namespace Memory

/-- The request byte of a radar that has been asked. -/
def radarAsked : UInt8 := 1

/-- The request byte of a radar that has answered. -/
def radarReady : UInt8 := 2

/-- Shows the program where its robot is. -/
def setPosition (m : Memory) (p : Vec2) : Memory :=
  (m.setNumber Layout.navX p.x).setNumber Layout.navY p.y

/-- Shows the program its robot's heading. -/
def setHeading (m : Memory) (degrees : Binary32) : Memory :=
  m.setNumber Layout.navHeading degrees

/-- The wanted speed. -/
def throttle (m : Memory) : Binary32 :=
  m.numberAt Layout.driveThrottle

/-- The wanted heading. -/
def targetHeading (m : Memory) : Binary32 :=
  m.numberAt Layout.driveTargetHeading

/-- Whether the radar has been asked. -/
def radarRequested (m : Memory) : Bool :=
  m.byte Layout.radarRequest == radarAsked

/-- The wanted range. -/
def radarRange (m : Memory) : Binary32 :=
  m.numberAt Layout.radarRange

/-- Reports as many contacts as there is room for. -/
def answerRadar (m : Memory) (contacts : List Contact) : Memory :=
  let shown := contacts.take Layout.radarSlots
  ((m.setBytes Layout.radarResults (shown.flatMap Contact.encode)).setWord Layout.radarCount
    (UInt32.ofNat shown.length)).setByte Layout.radarRequest radarReady

end Memory

end RobotArena
