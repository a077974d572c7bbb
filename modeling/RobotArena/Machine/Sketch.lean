import RobotArena.Geometry
import RobotArena.Identity

/-!
# Sketches

What programs draw into the arena for their authors to see. A sketch lasts for one tick and is
bounded over all robots together.
-/

namespace RobotArena

/-- A line between two points of the world. -/
structure SketchLine where
  entity : EntityId
  start : Vec2
  stop : Vec2
  color : UInt32
  deriving DecidableEq, Repr

/-- A text at a point of the world. -/
structure SketchLabel where
  entity : EntityId
  position : Vec2
  text : String
  deriving DecidableEq, Repr

/-- The lines and labels of a tick. -/
structure Sketch where
  lines : List SketchLine := []
  labels : List SketchLabel := []
  deriving DecidableEq, Repr

namespace Sketch

/-- How many lines and labels there is room for. -/
def capacity : Nat := 256

/-- Whether there is no room left. -/
def isFull (s : Sketch) : Bool :=
  capacity ≤ s.lines.length + s.labels.length

/-- Adds a line. -/
def addLine (s : Sketch) (line : SketchLine) : Sketch :=
  { s with lines := s.lines ++ [line] }

/-- Adds a label. -/
def addLabel (s : Sketch) (label : SketchLabel) : Sketch :=
  { s with labels := s.labels ++ [label] }

end Sketch

end RobotArena
