import RobotArena.Compilation.Scheduler
import RobotArena.Machine.Engine
import RobotArena.Technology.Basic

/-!
# Settings of an arena

How fast the arena runs, what its devices can do, and how the parts of it are set up. The defaults
suit an arena of sixty ticks a second.
-/

namespace RobotArena

/-- The settings of an arena. Speeds and turn rates are per tick, angles are in degrees, and
durations are in ticks. -/
structure Settings where
  tickRate : Nat := 60
  driveSpeed : Binary32 := 2
  driveTurnRate : Binary32 := 6
  turretTurnRate : Binary32 := 4
  turretCooldown : UInt32 := 30
  projectileSpeed : Binary32 := 8
  projectileLifetime : UInt32 := 60
  projectileDamage : Int32 := 10
  hitRadius : Binary32 := 1.5
  maxHealth : Int32 := 100
  radarRange : Binary32 := 200
  transmissionRange : Binary32 := 300
  extractionRadius : Binary32 := 10
  extractionAmount : UInt32 := 5
  extractorCapacity : UInt32 := 100
  transferReach : Binary32 := 8
  transporterCapacity : UInt32 := 50
  facilityQueueLength : Nat := 8
  researchCost : UInt32 := 20
  knownTechnologies : List String := ["armor", "engines", "optics"]
  pendriveBlocks : Nat := 4
  collectionInterval : Nat := 600
  queues : QueueCapacities := {}
  scheduler : SchedulerSettings := {}
  engine : EngineSettings := {}
  deriving DecidableEq, Repr

namespace Settings

/-- The length of a tick in microseconds. A rate of zero counts as one. -/
def tickLength (s : Settings) : Nat :=
  1000000 / max s.tickRate 1

/-- The hashes of the technologies that facilities know. -/
def technologies (s : Settings) : List TechHash :=
  s.knownTechnologies.map .ofName

end Settings

end RobotArena
