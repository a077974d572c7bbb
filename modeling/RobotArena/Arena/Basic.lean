import RobotArena.Compilation.Notice
import RobotArena.World.Device

/-!
# Arenas

An arena joins the world to the compiles of the programs that run in it. Its host adds and
removes entities, passes on commands, lines and clicks, and tells it when a source has changed.
Instants are microseconds since the arena was opened.
-/

namespace RobotArena

/-- The settings, the world, the compiles, the engine, the technologies that facilities know, the
notices that nobody has fetched yet, how many ticks have passed, and the sources whose records the
host holds, as often as it holds them. -/
structure Arena where
  settings : Settings
  world : World := {}
  scheduler : Scheduler
  engine : Engine
  technologies : List TechHash
  outbound : List Outbound := []
  ticks : Nat := 0
  held : List SourceId := []

/-- The queues that a host can put something in. -/
inductive HostQueue where
  | commands
  | stdin
  | uiEvents
  deriving DecidableEq, Repr

/-- The word for the queue. -/
def HostQueue.word : HostQueue → String
  | .commands => "commands"
  | .stdin => "stdin"
  | .uiEvents => "ui_events"

/-- Why the arena refuses something. -/
inductive ArenaError where
  | unknownEntity (id : EntityId)
  | notAProcessor (id : EntityId)
  | unknownElement (id : UInt32)
  | queueFull (id : EntityId) (queue : HostQueue)
  deriving DecidableEq, Repr

/-- The words for an entity in an error. -/
def ArenaError.entity (id : EntityId) : String :=
  s!"EntityId({id.number})"

/-- The words for the error. -/
def ArenaError.message : ArenaError → String
  | .unknownEntity id => s!"no entity {entity id}"
  | .notAProcessor id => s!"entity {entity id} has no processor"
  | .unknownElement id => s!"no GUI element {id}"
  | .queueFull id queue => s!"{queue.word} queue of entity {entity id} is full"

namespace Arena

/-- An empty arena. -/
def create (settings : Settings) : Arena where
  settings
  scheduler := { settings := settings.scheduler }
  engine := { settings := settings.engine }
  technologies := settings.technologies

/-- The instant of the next tick, as far as it follows from the number of ticks. -/
def now (a : Arena) : Nat :=
  a.ticks * 1000000 / max a.settings.tickRate 1

/-- Adds an entity. -/
def spawn (a : Arena) (b : Blueprint) : EntityId × Arena :=
  let (id, world) := a.world.spawn a.settings b
  (id, { a with world })

/-- Removes an entity. Answers what it was. -/
def despawn (a : Arena) (id : EntityId) : Except ArenaError (Entity × Arena) :=
  match a.world.find? id with
  | some e => .ok (e, { a with world := a.world.despawn id })
  | none => .error (.unknownEntity id)

/-- The processor of an entity. -/
def processor (a : Arena) (id : EntityId) : Except ArenaError Processor :=
  match a.world.find? id with
  | none => .error (.unknownEntity id)
  | some e => match e.processor with
    | none => .error (.notAProcessor id)
    | some p => .ok p

/-- Replaces the processor of an entity. -/
def setProcessor (a : Arena) (id : EntityId) (p : Processor) : Arena :=
  { a with world := a.world.modify id ({ · with processor := some p }) }

/-- Points an entity's processor at another program, or none. -/
def setProgram (a : Arena) (id : EntityId) (source : Option SourceId) :
    Except ArenaError Arena := do
  let p ← a.processor id
  return a.setProcessor id (p.setSource source)

/-- Changes the queues of an entity's processor; nothing means that one of them is full. -/
def putInQueue (a : Arena) (id : EntityId) (queue : HostQueue)
    (change : Queues → Option Queues) : Except ArenaError Arena := do
  let p ← a.processor id
  match change p.queues with
  | some queues => return a.setProcessor id { p with queues }
  | none => throw (.queueFull id queue)

/-- Passes a command on to an entity's program. -/
def pushCommand (a : Arena) (id : EntityId) (command : List UInt8) : Except ArenaError Arena :=
  a.putInQueue id .commands fun q =>
    (q.commands.push? command).map fun commands => { q with commands }

/-- Keeps a line for an entity's program until it asks for one. -/
def provideLine (a : Arena) (id : EntityId) (line : List UInt8) : Except ArenaError Arena :=
  a.putInQueue id .stdin fun q => (q.stdin.push? line).map fun stdin => { q with stdin }

/-- Tells the owner of an element that a player clicked on it. -/
def click (a : Arena) (element : UInt32) : Except ArenaError Arena :=
  match a.world.panel.find? element with
  | none => .error (.unknownElement element)
  | some e => a.putInQueue e.owner .uiEvents fun q =>
      (q.uiEvents.push? element).map fun uiEvents => { q with uiEvents }

/-- Reschedules what depends on a source whose text has changed. Answers how much it was. -/
def sourceChanged (a : Arena) (source : SourceId) (now : Nat) :
    Except UnknownSource (Nat × Arena) := do
  let (count, scheduler) ← a.scheduler.invalidate source now
  return (count, { a with scheduler })

/-- Lets the host hold the record of a source, if there is one. -/
def hold (a : Arena) (source : SourceId) : Arena :=
  if (a.scheduler.registry.find? source).isSome then { a with held := source :: a.held } else a

/-- Lets the host let go of a record that it holds. -/
def release (a : Arena) (source : SourceId) : Arena :=
  { a with held := a.held.erase source }

/-- Hands out the notices that nobody has fetched yet. -/
def takeOutbound (a : Arena) : List Outbound × Arena :=
  (a.outbound, { a with outbound := [] })

end Arena

end RobotArena
