import RobotArena.Memory.Console
import RobotArena.World.Basic

/-!
# Messaging

Lines reach the programs that ask for them, and transmissions reach the robots of a team.
-/

namespace RobotArena

/-! ### Lines -/

/-- Delivers the oldest line to a program that asks for one. -/
def Processor.deliverLine (p : Processor) : Processor :=
  match p.memory.stdinRequested, p.queues.stdin.front? with
  | true, some line =>
    { p with
      memory := p.memory.deliverStdin line
      queues := { p.queues with stdin := p.queues.stdin.pop } }
  | _, _ => p

/-- Delivers lines to all programs that ask for one. -/
def World.deliverLines (w : World) : World :=
  w.mapEntities fun e => { e with processor := e.processor.map Processor.deliverLine }

/-! ### Transmissions -/

namespace Entity

/-- The transmissions that an entity's program has sent, oldest first. -/
def sent (e : Entity) : List Transmission :=
  match e.processor with
  | some p => p.queues.outbound.items
  | none => []

/-- Takes away the transmissions that an entity's program has sent. -/
def clearSent (e : Entity) : Entity :=
  { e with processor := e.processor.map fun p =>
      { p with queues := { p.queues with outbound := p.queues.outbound.clear } } }

/-- Whether a transmission is meant for an entity and heard by it. -/
def hears (settings : Settings) (t : Transmission) (e : Entity) : Bool :=
  e.id ≠ t.sender && e.team = t.team && t.reaches e.position settings.transmissionRange

/-- Copies a transmission into an entity's inbound queue, unless it is full. -/
def receive (t : Transmission) (e : Entity) : Option Entity := do
  let p ← e.processor
  let inbound ← p.queues.inbound.push? t
  return { e with processor := some { p with queues := { p.queues with inbound } } }

end Entity

/-- Delivers a transmission to all that hear it. Answers how many copies were delivered. -/
def Transmission.deliver (settings : Settings) (t : Transmission) :
    List Entity → Nat × List Entity
  | [] => (0, [])
  | e :: rest =>
    let (count, rest) := deliver settings t rest
    match if e.hears settings t then e.receive t else none with
    | some e => (count + 1, e :: rest)
    | none => (count, e :: rest)

/-- Delivers everything that was sent, by sender and then in the order of sending. Answers how
many copies were delivered. -/
def World.deliver (settings : Settings) (w : World) : Nat × World :=
  let pending := w.entities.flatMap Entity.sent
  let (count, entities) := pending.foldl
    (fun (count, entities) t =>
      let (more, entities) := t.deliver settings entities
      (count + more, entities))
    (0, w.entities.map Entity.clearSent)
  (count, { w with entities })

end RobotArena
