import RobotArena.Binary32.Basic

/-!
# Plane geometry

Points of the plane, angles in degrees, and poses: a position with a heading. A heading of 0
points along the first axis and headings grow toward the second axis. Every result is rounded
after each operation, so the order of the operations is part of the definitions.
-/

namespace RobotArena

/-- A point or a displacement. -/
structure Vec2 where
  x : Binary32
  y : Binary32
  deriving DecidableEq, Inhabited, Repr

namespace Angle

/-- The same direction in the interval from 0 to 360, without 360. -/
def normalize (a : Binary32) : Binary32 :=
  let wrapped := a.remEuclid 360
  if Binary32.le 360 wrapped then 0 else wrapped

/-- The turn that leads from one direction to another by the shorter way: more than -180 and at
most 180. -/
def difference (start target : Binary32) : Binary32 :=
  let delta := normalize (target - start)
  if Binary32.lt 180 delta then delta - 360 else delta

/-- Turns from `current` toward `target` by at most `limit`. -/
def towards (current target limit : Binary32) : Binary32 :=
  let delta := difference current target
  if delta.abs.le limit then normalize target else normalize (current + limit.withSignOf delta)

end Angle

namespace Vec2

/-- The point at which both coordinates are zero. -/
def zero : Vec2 := ⟨0, 0⟩

instance : Add Vec2 := ⟨fun a b => ⟨a.x + b.x, a.y + b.y⟩⟩
instance : Sub Vec2 := ⟨fun a b => ⟨a.x - b.x, a.y - b.y⟩⟩

/-- Multiplies both coordinates. -/
def scale (v : Vec2) (k : Binary32) : Vec2 :=
  ⟨v.x * k, v.y * k⟩

/-- The unit vector in a direction. -/
def ofAngle (degrees : Binary32) : Vec2 :=
  let a := degrees.toRadians
  ⟨a.cos, a.sin⟩

/-- The length. -/
def length (v : Vec2) : Binary32 :=
  (v.x * v.x + v.y * v.y).sqrt

/-- The distance between two points. -/
def distance (a b : Vec2) : Binary32 :=
  (b - a).length

/-- The direction of the vector. -/
def angle (v : Vec2) : Binary32 :=
  Angle.normalize (Binary32.atan2 v.y v.x).toDegrees

/-- Turns the vector about the origin. -/
def rotate (v : Vec2) (degrees : Binary32) : Vec2 :=
  let a := degrees.toRadians
  let s := a.sin
  let c := a.cos
  ⟨v.x * c - v.y * s, v.x * s + v.y * c⟩

/-- Whether both coordinates are numerically equal. -/
def same (a b : Vec2) : Bool :=
  a.x.same b.x && a.y.same b.y

end Vec2

/-- Where something is and which way it faces. -/
structure Pose where
  position : Vec2
  heading : Binary32
  deriving DecidableEq, Inhabited, Repr

namespace Pose

/-- A point of the world as seen from the pose. -/
def toLocal (p : Pose) (world : Vec2) : Vec2 :=
  (world - p.position).rotate (-p.heading)

/-- A point seen from the pose as a point of the world. -/
def toWorld (p : Pose) (point : Vec2) : Vec2 :=
  point.rotate p.heading + p.position

/-- The direction of the world in which a point lies. -/
def bearing (p : Pose) (target : Vec2) : Binary32 :=
  (target - p.position).angle

end Pose

end RobotArena
