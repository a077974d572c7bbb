import RobotArena.Arena.Basic
import RobotArena.World.Arithmetic

/-!
# Ticks

A tick asks for the sources of all programs, lets the scheduler work, gives every processor its
slice, runs the devices, delivers transmissions, moves projectiles, collects the notices that are
due, and at times drops the records that nobody uses.
-/

namespace RobotArena

/-- What happened in a tick, and whether its arithmetic overflowed. -/
structure TickSummary where
  tick : Nat
  scheduler : TickReport
  instructions : Nat
  reloads : List (EntityId × Nat)
  signals : List (EntityId × Signal)
  delivered : Nat
  destroyed : List EntityId
  collected : List SourceId
  overflowed : Bool
  deriving DecidableEq

namespace TickOutcome

/-- How many instructions were executed. -/
def instructions : TickOutcome → Nat
  | .executed n _ | .signaled _ n => n
  | .idle | .reloaded _ => 0

/-- The version that was loaded. -/
def reload? : TickOutcome → Option Nat
  | .reloaded version => some version
  | _ => none

/-- The signal that was raised. -/
def signal? : TickOutcome → Option Signal
  | .signaled signal _ => some signal
  | _ => none

end TickOutcome

/-! ### Programs -/

/-- Binds a processor that has a source to the record of that source. -/
def Processor.bindSource (p : Processor) : Processor :=
  match p.source, p.binding with
  | some source, none => p.bind source
  | _, _ => p

namespace World

/-- The sources that processors are pointed at. -/
def sources (w : World) : List SourceId :=
  (w.entities.filterMap (·.processor)).filterMap (·.source)

/-- The sources that processors are bound to. -/
def bindings (w : World) : List SourceId :=
  (w.entities.filterMap (·.processor)).filterMap (·.binding)

/-- Binds all processors that have a source. -/
def bindAll (w : World) : World :=
  w.mapEntities fun e => { e with processor := e.processor.map Processor.bindSource }

end World

/-- Gives an entity's processor its slice of a tick. The sketch and the panel are handed from one
entity to the next. -/
def Entity.runSlice (engine : Engine) (registry : Registry) (clock : UInt64) (e : Entity)
    (sketch : Sketch) (panel : Panel) : Option TickOutcome × Entity × Sketch × Panel :=
  let ⟨id, team, pose, health, drive, radar, attachment, processor, pendrive⟩ := e
  match processor with
  | none =>
    (none, ⟨id, team, pose, health, drive, radar, attachment, none, pendrive⟩, sketch, panel)
  | some p =>
    let (outcome, p, host) := engine.tick registry p
      (some { entity := id, team, pose, clock, sketch, panel, pendrive })
    match host with
    | some h =>
      (outcome, ⟨id, team, pose, health, drive, radar, attachment, some p, h.pendrive⟩, h.sketch,
        h.panel)
    | none =>
      (outcome, ⟨id, team, pose, health, drive, radar, attachment, some p, pendrive⟩, sketch,
        panel)

namespace World

/-- Gives processors their slices, one entity after another. -/
def runSlices (engine : Engine) (registry : Registry) (clock : UInt64) :
    List Entity → Sketch → Panel → List (EntityId × TickOutcome) × List Entity × Sketch × Panel
  | [], sketch, panel => ([], [], sketch, panel)
  | e :: rest, sketch, panel =>
    let id := e.id
    let (outcome?, e, sketch, panel) := e.runSlice engine registry clock sketch panel
    let (outcomes, rest, sketch, panel) := runSlices engine registry clock rest sketch panel
    ((outcome?.map (id, ·)).toList ++ outcomes, e :: rest, sketch, panel)

/-- Gives every processor its slice. The sketch starts empty. -/
def runPrograms (engine : Engine) (registry : Registry) (clock : UInt64) (w : World) :
    List (EntityId × TickOutcome) × World :=
  let ⟨entities, nextId, deposits, projectiles, panel, _⟩ := w
  let (outcomes, entities, sketch, panel) :=
    runSlices engine registry clock entities {} panel
  (outcomes, ⟨entities, nextId, deposits, projectiles, panel, sketch⟩)

end World

/-! ### Ticks -/

namespace Arena

/-- Asks the scheduler for the sources of all programs. -/
def requestSources (scheduler : Scheduler) (w : World) (now : Nat) : Scheduler :=
  w.sources.foldl (fun s source => s.request source now) scheduler

/-- Whether records that nobody uses are dropped after a number of ticks. -/
def isCollectionDue (settings : Settings) (ticks : Nat) : Bool :=
  settings.collectionInterval != 0 && ticks % settings.collectionInterval == 0

/-- Drops the records that no processor is bound to and that the host does not hold, if it is time
for that. -/
def collect (settings : Settings) (ticks : Nat) (w : World) (held : List SourceId)
    (scheduler : Scheduler) : List SourceId × Scheduler :=
  if isCollectionDue settings ticks then
    scheduler.collect fun source => w.bindings.contains source || held.contains source
  else ([], scheduler)

/-- Runs a tick at an instant. -/
def tick {σ : Type} (a : Arena) (dispatcher : Dispatcher σ) (env : σ) (now : Nat) :
    TickSummary × Arena × σ :=
  let ⟨settings, world, scheduler, engine, technologies, outbound, ticks, held⟩ := a
  let scheduler := requestSources scheduler world now
  let world := world.bindAll
  let (report, scheduler, env) := scheduler.tick dispatcher env now
  let clock := UInt64.ofNat (now / 1000)
  let (outcomes, world) := world.runPrograms engine scheduler.registry clock
  let overflowed := world.overflows settings technologies
  let world := world.runDevices settings technologies
  let (delivered, world) := world.deliver settings
  let (destroyed, world) := world.integrate settings
  let (notices, registry) :=
    scheduler.registry.sync now (settings.scheduler.syncInterval * 1000)
  let scheduler := { scheduler with registry }
  let (collected, scheduler) := collect settings (ticks + 1) world held scheduler
  ({ tick := ticks
     scheduler := report
     instructions := outcomes.foldl (fun n o => n + o.2.instructions) 0
     reloads := outcomes.filterMap fun (id, o) => o.reload?.map (id, ·)
     signals := outcomes.filterMap fun (id, o) => o.signal?.map (id, ·)
     delivered
     destroyed
     collected
     overflowed },
    ⟨settings, world, scheduler, engine, technologies, outbound ++ notices, ticks + 1, held⟩, env)

/-- Runs a tick at the instant that follows from the number of ticks. -/
def step {σ : Type} (a : Arena) (dispatcher : Dispatcher σ) (env : σ) :
    TickSummary × Arena × σ :=
  a.tick dispatcher env a.now

end Arena

end RobotArena
