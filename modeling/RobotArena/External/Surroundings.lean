import RobotArena.External.Call

/-!
# Functions on the surroundings

Drawing into the arena, changing between the robot's frame and the world's, and the time.
-/

namespace RobotArena.External

/-- The greatest number of bytes of a label. -/
def maxLabel : UInt32 := 64

/-- Draws a line between two points of the world. -/
def debugLine : External :=
  ofWords 22 "debug_line" 20 0 fun args => do
    let h ← Call.host
    Call.require (!h.sketch.isFull) .queueFull
    Call.setHost { h with
      sketch := h.sketch.addLine ⟨h.entity, args.point 0, args.point 2, args 4⟩ }
    return []

/-- Draws the text at an address at a point of the world. -/
def debugLabel : External :=
  ofWords 23 "debug_label" 16 0 fun args => do
    Call.requireLength (args 3) maxLabel
    let h ← Call.host
    Call.require (!h.sketch.isFull) .queueFull
    let bytes ← Call.read (args 2) (args 3)
    Call.setHost { h with
      sketch := h.sketch.addLabel ⟨h.entity, args.point 0, Text.ofBytesLossy bytes⟩ }
    return []

/-- A point of the world in the robot's frame. -/
def toLocal : External :=
  ofWords 24 "to_local" 8 8 fun args => do
    let p := (← Call.host).pose.toLocal (args.point 0)
    return [p.x.bits, p.y.bits]

/-- A point of the robot's frame in the world. -/
def toWorld : External :=
  ofWords 25 "to_world" 8 8 fun args => do
    let p := (← Call.host).pose.toWorld (args.point 0)
    return [p.x.bits, p.y.bits]

/-- The time in milliseconds, the low word first. -/
def time : External :=
  ofWords 26 "time" 0 8 fun _ => do
    let clock := (← Call.host).clock
    return [clock.toUInt32, (clock >>> 32).toUInt32]

/-- The functions on the surroundings. -/
def surroundings : List External :=
  [debugLine, debugLabel, toLocal, toWorld, time]

end RobotArena.External
