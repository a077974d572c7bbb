import RobotArena.Machine.Panel
import RobotArena.Machine.Pendrive
import RobotArena.Machine.Queue
import RobotArena.Machine.Sketch
import RobotArena.Machine.Transmission

/-!
# What a running program can reach

A program reaches its memory. If it runs for a robot, it reaches also the robot's queues and
pendrive, the team's panel and the sketch, and knows where the robot is and what time it is.
-/

namespace RobotArena

/-- How long the queues of a processor can get. -/
structure QueueCapacities where
  inbound : Nat := 16
  outbound : Nat := 8
  commands : Nat := 16
  stdin : Nat := 4
  uiEvents : Nat := 16
  deriving DecidableEq, Repr

/-- The queues between a program and the arena. -/
structure Queues where
  inbound : Queue Transmission
  outbound : Queue Transmission
  commands : Queue (List UInt8)
  stdin : Queue (List UInt8)
  uiEvents : Queue UInt32

/-- Empty queues. -/
def Queues.ofCapacities (c : QueueCapacities) : Queues :=
  ⟨⟨c.inbound, []⟩, ⟨c.outbound, []⟩, ⟨c.commands, []⟩, ⟨c.stdin, []⟩, ⟨c.uiEvents, []⟩⟩

/-- The robot that a program runs for. The clock counts milliseconds. -/
structure Host where
  entity : EntityId
  team : TeamId
  pose : Pose
  clock : UInt64
  sketch : Sketch := {}
  panel : Panel := {}
  pendrive : Option Pendrive := none

/-- Everything that a program can reach. The queues can be reached only with a host. -/
structure Context where
  memory : Memory
  queues : Queues
  host : Option Host

end RobotArena
