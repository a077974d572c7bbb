import RobotArena.Arena.Tick
import RobotArena.CommandLine.Check
import RobotArena.Compilation.NoticeFormat
import RobotArena.Settings.Override

/-!
# Running a program

`run` puts one robot with a program into an arena, lets the arena tick, prints every notice, and
at the end a report on the robot.
-/

namespace RobotArena.CommandLine

/-- A run: the arena, its workshop, the robot, whether jobs run on the thread of the run, and the
instructions executed so far. -/
structure Session where
  arena : Arena
  workshop : Workshop
  robot : EntityId
  inline : Bool
  instructions : Nat := 0

namespace Session

/-- The robot that a run is about. -/
def blueprint (program : String) (o : RunOptions) : Blueprint where
  team := ⟨1⟩
  program := some (.ofPath program)
  drive := o.drive
  radar := o.radar
  attachment := o.attachment
  pendrive := o.pendrive

/-- Sets up a run. It fails if the robot cannot take all lines. -/
def start (settings : Settings) (sources : List (String × List UInt8)) (program : String)
    (o : RunOptions) : Except ArenaError Session := do
  let arena := Arena.create settings
  let world := o.resources.foldl World.addDeposit arena.world
  let (robot, arena) := { arena with world }.spawn (blueprint program o)
  let arena ← o.stdin.foldlM (fun a line => a.provideLine robot (Text.toBytes line)) arena
  return { arena, workshop := workshopOf sources, robot, inline := o.inline }

/-- A notice as it is printed. -/
def printNotice (o : Outbound) : Printed :=
  .value (.record [("message", o.notice.encode), ("to", .text o.receiver.render)])

/-- Runs a tick at an instant. Answers what is printed. -/
def tick (s : Session) (now : Nat) : List Printed × Session :=
  let ⟨arena, workshop, robot, inline, instructions⟩ := s
  let (summary, arena, workshop) := arena.tick Workshop.dispatch workshop now
  let (notices, arena) := arena.takeOutbound
  (notices.map printNotice, ⟨arena, workshop, robot, inline, instructions + summary.instructions⟩)

/-- Whether a job has overflowed on the thread of the run, which ends with it. -/
def isAborted (s : Session) : Bool :=
  s.inline && s.workshop.overflowed

/-- The robot. -/
def robot? (s : Session) : Option Entity :=
  s.arena.world.find? s.robot

/-- A point. -/
def encodePoint (p : Vec2) : Json :=
  .record [("x", .ofBinary32 p.x), ("y", .ofBinary32 p.y)]

/-- The report at the end. What belongs to a robot that is gone is `null`. -/
def report (s : Session) : Json :=
  let e := s.robot?
  let p := e.bind (·.processor)
  .record [("crash_message", .option .text (p.bind (·.crashMessage?))),
    ("heading", .option (fun e : Entity => .ofBinary32 e.pose.heading) e),
    ("health", .option (fun e : Entity => .int e.health.toInt) e),
    ("instructions", .nat s.instructions),
    ("position", .option (fun e : Entity => encodePoint e.position) e),
    ("signal", .option (fun p : Processor => .text p.signal.name) p),
    ("stdout", .option (fun p : Processor => .text (Text.ofBytesLossy p.memory.stdout)) p),
    ("ticks", .nat s.arena.ticks)]

/-- Runs at most some ticks, as long as the robot is there, each at the instant that follows from
the number of ticks. Answers what is printed. A tick in which the run is aborted prints nothing. -/
def runTicks : Nat → Session → List Printed × Session
  | 0, s => ([], s)
  | n + 1, s =>
    let now := s.arena.now
    let (printed, s) := s.tick now
    if s.isAborted then ([], s)
    else if s.robot?.isSome then
      let (rest, s) := runTicks n s
      (printed ++ rest, s)
    else (printed, s)

end Session

/-- The exit code for files, settings or lines that cannot be used. -/
def unusable : UInt8 := 3

/-- What is put out when something cannot be used. -/
def unusableOutput (message : String) : Output :=
  { code := unusable, stderr := [s!"Error: {message}"] }

/-- The settings of a run. -/
def runSettings (config : Option (List UInt8)) (env : List (String × String)) (o : RunOptions) :
    Except SettingsError Settings := do
  let s ← Settings.load config env
  match o.budget with
  | some budget => return { s with engine := { s.engine with instructionBudget := budget } }
  | none => return s

/-- Runs a program to the end. -/
def run (settings : Settings) (sources : List (String × List UInt8)) (program : String)
    (o : RunOptions) : Output :=
  match Session.start settings sources program o with
  | .error e => unusableOutput e.message
  | .ok s =>
    if settings.tickLength = 0 then
      { code := aborted, stderr := ["Error: a tick has no length at this tick rate"] }
    else
      let (printed, s) := s.runTicks o.ticks
      if s.isAborted then overflowOutput printed
      else { code := 0, stdout := printed ++ [.report s.report] }

/-- The files and variables that a call of the program finds. A file or directory that cannot be
read is missing. -/
structure Inputs where
  config : Option (List UInt8)
  sources : Option (List (String × List UInt8))
  environment : List (String × String)

/-- The settings that a call finds; a file that is asked for and cannot be read is an error. -/
def Inputs.settings (s : Inputs) (config : Option String) (o : RunOptions) :
    Except SettingsError Settings :=
  match config, s.config with
  | some _, none => .error .unreadable
  | _, file => runSettings file s.environment o

/-- The words for a directory that cannot be read. -/
def unreadable (dir : String) : String :=
  s!"failed to read '{dir}'"

/-- The words for settings that cannot be used. -/
def settingsMessage (e : SettingsError) : String :=
  e.message?.getD "the config file cannot be used"

/-- Carries out an invocation. Settings that cannot be used are found before a directory that
cannot be read. -/
def Invocation.execute (s : Inputs) : Invocation → Output
  | .check dir program =>
    match s.sources with
    | none => unusableOutput (unreadable dir)
    | some sources => CommandLine.check sources program
  | .run dir program config o =>
    match s.settings config o, s.sources with
    | .error e, _ => unusableOutput (settingsMessage e)
    | .ok _, none => unusableOutput (unreadable dir)
    | .ok settings, some sources => CommandLine.run settings sources program o

end RobotArena.CommandLine
