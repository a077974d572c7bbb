import RobotArena.Memory.Chassis
import RobotArena.World.Basic

/-!
# Motion

The drive turns a robot toward the heading that its program wants, and then moves it. Navigation
shows a program where its robot is.
-/

namespace RobotArena

namespace Entity

/-- Shows the program the robot's pose. -/
def navigate (e : Entity) : Entity :=
  e.onMemory fun m => (m.setPosition e.position).setHeading e.pose.heading

/-- The speed that a program wants, as a part of full speed. What is not finite is no speed. -/
def wantedSpeed (m : Memory) : Binary32 :=
  if m.throttle.isFinite then m.throttle.clamp (-1) 1 else 0

/-- The heading after a tick. A wanted heading that is not finite is passed over. -/
def turned (settings : Settings) (m : Memory) (heading : Binary32) : Binary32 :=
  if m.targetHeading.isFinite then
    Angle.towards heading m.targetHeading settings.driveTurnRate
  else heading

/-- The pose after a tick. -/
def driven (settings : Settings) (m : Memory) (p : Pose) : Pose :=
  let heading := turned settings m p.heading
  ⟨p.position + (Vec2.ofAngle heading).scale (wantedSpeed m * settings.driveSpeed), heading⟩

/-- Moves the robot if it has a drive. -/
def move (settings : Settings) (e : Entity) : Entity :=
  match e.drive, e.processor with
  | true, some p => { e with pose := driven settings p.memory e.pose }
  | _, _ => e

end Entity

namespace World

/-- Shows every program its robot's pose. -/
def navigate (w : World) : World :=
  w.mapEntities Entity.navigate

/-- Moves every robot that has a drive. -/
def move (settings : Settings) (w : World) : World :=
  w.mapEntities (Entity.move settings)

end World

end RobotArena
