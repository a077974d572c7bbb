import RobotArena.World.Combat
import RobotArena.World.Economy
import RobotArena.World.Messaging
import RobotArena.World.Motion
import RobotArena.World.Sensing

/-!
# Devices

The devices through which programs act on the arena, in the order in which they are run in a
tick.
-/

namespace RobotArena

/-- A device. -/
inductive Device where
  | console
  | navigation
  | drive
  | radar
  | turret
  | extractor
  | transporter
  | facility
  deriving DecidableEq, Repr

namespace Device

/-- Every device, in the order of a tick. -/
def all : List Device :=
  [console, navigation, drive, radar, turret, extractor, transporter, facility]

/-- The word for a device. -/
def word : Device → String
  | console => "console"
  | navigation => "navigation"
  | drive => "drive"
  | radar => "radar"
  | turret => "turret"
  | extractor => "extractor"
  | transporter => "transporter"
  | facility => "facility"

/-- The device that a word stands for. -/
def ofWord? (w : String) : Option Device :=
  all.find? (·.word == w)

/-- Runs a device for all entities. -/
def run (settings : Settings) (technologies : List TechHash) (w : World) : Device → World
  | console => w.deliverLines
  | navigation => w.navigate
  | drive => w.move settings
  | radar => w.sense
  | turret => w.fire settings
  | extractor => w.extract settings
  | transporter => w.transfer settings
  | facility => w.research settings technologies

end Device

/-- Runs all devices. -/
def World.runDevices (settings : Settings) (technologies : List TechHash) (w : World) : World :=
  Device.all.foldl (Device.run settings technologies) w

end RobotArena
