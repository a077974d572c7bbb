import RobotArena.Geometry
import RobotArena.Identity

/-!
# Radio transmissions

A transmission is heard within a range, and one with a beam only in the beam's direction.
-/

namespace RobotArena

/-- A direction of the world and the full width of the cone around it, in degrees. -/
structure Beam where
  direction : Binary32
  spread : Binary32
  deriving DecidableEq, Repr

/-- A message to the other robots of a team. -/
structure Transmission where
  sender : EntityId
  team : TeamId
  origin : Vec2
  payload : List UInt8
  beam : Option Beam
  deriving DecidableEq, Repr

namespace Transmission

/-- The greatest number of bytes of a payload. -/
def maxPayload : UInt32 := 64

/-- Whether a beam covers a point. It covers its own origin. -/
def covers (origin : Vec2) (beam : Beam) (target : Vec2) : Bool :=
  target.same origin ||
    (Angle.difference beam.direction (target - origin).angle).abs.le (beam.spread / 2)

/-- Whether the transmission is heard at a point, with a given range. A distance that is no
number is not beyond the range. -/
def reaches (t : Transmission) (target : Vec2) (range : Binary32) : Bool :=
  !range.lt (t.origin.distance target) && t.beam.all (covers t.origin · target)

end Transmission

end RobotArena
