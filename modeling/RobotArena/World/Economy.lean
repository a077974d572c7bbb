import RobotArena.Memory.Attachment
import RobotArena.World.Basic

/-!
# Economy

Extractors draw resources from deposits, transporters carry them to facilities, and facilities
spend them on technologies.
-/

namespace RobotArena

/-! ### Extractors -/

namespace Extractor

/-- How an extraction ends. -/
inductive Status where
  | ok
  | nothingInRange
  | full
  deriving DecidableEq, Repr

/-- The number that stands for the status. -/
def Status.code : Status → UInt8
  | ok => 1
  | nothingInRange => 2
  | full => 3

/-- The place of the nearest deposit within reach that holds something. -/
def deposit? (settings : Settings) (position : Vec2) (deposits : List Deposit) :
    Option (Nat × Deposit) :=
  let holding := deposits.zipIdx.filter fun (d, _) => 0 < d.amount
  let measured := holding.map fun (d, i) => (d.position.distance position, i, d)
  nearest? (measured.filter fun (distance, _) => distance.le settings.extractionRadius)

/-- Draws from the nearest deposit. Answers the status, the units stored and the deposits. -/
def extract (settings : Settings) (position : Vec2) (stored capacity : UInt32)
    (deposits : List Deposit) : Status × UInt32 × List Deposit :=
  if capacity ≤ stored then (.full, stored, deposits)
  else match deposit? settings position deposits with
    | none => (.nothingInRange, stored, deposits)
    | some (i, d) =>
      let amount := min (min settings.extractionAmount d.amount) (capacity - stored)
      (.ok, stored + amount, deposits.set i { d with amount := d.amount - amount })

end Extractor

/-- Runs an entity's extractor. -/
def Entity.extract (settings : Settings) (e : Entity) (deposits : List Deposit) :
    Entity × List Deposit :=
  match e.attachment, e.processor with
  | .extractor stored capacity, some p =>
    if p.memory.extractionRequested then
      let (status, stored, deposits) :=
        Extractor.extract settings e.position stored capacity deposits
      let e := { e with attachment := .extractor stored capacity }
      (e.onMemory fun m =>
        (m.clearExtraction.setExtractorStatus status.code).showStorage stored capacity, deposits)
    else (e.onMemory fun m => m.clearExtraction.showStorage stored capacity, deposits)
  | _, _ => (e, deposits)

/-- Runs extractors one after another. -/
def Extractor.runAll (settings : Settings) :
    List Entity → List Deposit → List Entity × List Deposit
  | [], deposits => ([], deposits)
  | e :: rest, deposits =>
    let (e, deposits) := e.extract settings deposits
    let (rest, deposits) := runAll settings rest deposits
    (e :: rest, deposits)

/-- Runs all extractors. -/
def World.extract (settings : Settings) (w : World) : World :=
  let (entities, deposits) := Extractor.runAll settings w.entities w.deposits
  { w with entities, deposits }

/-! ### Transporters -/

namespace Transporter

/-- What a transporter can be told. -/
inductive Command where
  | load
  | unload
  deriving DecidableEq, Repr

/-- The command that a number stands for. -/
def Command.ofCode? (code : UInt8) : Option Command :=
  if code = 1 then some .load else if code = 2 then some .unload else none

/-- How a transfer ends. -/
inductive Status where
  | ok
  | noPartner
  | nothingToMove
  deriving DecidableEq, Repr

/-- The number that stands for the status. -/
def Status.code : Status → UInt8
  | ok => 1
  | noPartner => 2
  | nothingToMove => 3

/-- The kind of attachment that a command trades with. -/
def Command.partnerKind : Command → AttachmentKind
  | .load => .extractor
  | .unload => .facility

/-- A transfer that a program asks for. -/
structure Request where
  entity : EntityId
  team : TeamId
  position : Vec2
  command : Command
  deriving DecidableEq, Repr

/-- The transfer that an entity's program asks for, if its number is known. -/
def request? (e : Entity) : Option Request :=
  match e.attachment, e.processor with
  | .transporter .., some p =>
    (Command.ofCode? p.memory.transferCommand).map fun command =>
      ⟨e.id, e.team, e.position, command⟩
  | _, _ => none

/-- Takes a command away, known or not. -/
def clear (e : Entity) : Entity :=
  match e.attachment with
  | .transporter .. => e.onMemory Memory.clearTransfer
  | _ => e

/-- The nearest other entity of the team that the transfer can be made with. -/
def partner? (settings : Settings) (r : Request) (entities : List Entity) : Option Entity :=
  let suitable := entities.filter fun e =>
    e.id ≠ r.entity && e.team = r.team && e.attachment.kind = r.command.partnerKind
  let measured := suitable.map fun e => (e.position.distance r.position, e)
  nearest? (measured.filter fun (d, _) => d.le settings.transferReach)

/-- A transporter's cargo and the other side, after a transfer, and the units moved. -/
def trade (cargo capacity : UInt32) : Attachment → UInt32 × Attachment × UInt32
  | .extractor stored limit =>
    let moved := min stored (capacity - cargo)
    (cargo + moved, .extractor (stored - moved) limit, moved)
  | .facility stored queue researched => (0, .facility (stored + cargo) queue researched, cargo)
  | other => (cargo, other, 0)

/-- Shows the program of a transporter how its transfer ended. -/
def report (status : Status) (cargo partner : UInt32) (e : Entity) : Entity :=
  e.onMemory fun m => m.showTransfer status.code cargo partner

/-- Makes a transfer. -/
def transfer (settings : Settings) (w : World) (r : Request) : World :=
  match (w.find? r.entity).map Entity.attachment with
  | some (.transporter cargo capacity) =>
    match partner? settings r w.entities with
    | none => w.modify r.entity (report .noPartner cargo 0)
    | some partner =>
      let (cargo, other, moved) := trade cargo capacity partner.attachment
      let status := if moved = 0 then Status.nothingToMove else .ok
      let w := w.modify partner.id ({ · with attachment := other })
      w.modify r.entity fun e =>
        report status cargo partner.id.number { e with attachment := .transporter cargo capacity }
  | _ => w

end Transporter

/-- Takes all commands of transporters, and then makes the transfers one after another. -/
def World.transfer (settings : Settings) (w : World) : World :=
  let requests := w.entities.filterMap Transporter.request?
  requests.foldl (Transporter.transfer settings) (w.mapEntities Transporter.clear)

/-! ### Facilities -/

namespace Facility

/-- What a facility holds. -/
structure Stock where
  stored : UInt32
  queue : List TechHash
  researched : List TechHash
  deriving DecidableEq

/-- How an operation ends. -/
inductive Status where
  | ok
  | queueFull
  | unknownTechnology
  | queueEmpty
  | badOperation
  deriving DecidableEq, Repr

/-- The number that stands for the status. -/
def Status.code : Status → UInt8
  | ok => 1
  | queueFull => 2
  | unknownTechnology => 3
  | queueEmpty => 4
  | badOperation => 5

/-- Puts a technology in the queue if it is known and there is room. -/
def enqueue (settings : Settings) (technologies : List TechHash) (hash : TechHash) (s : Stock) :
    Status × Stock :=
  if !technologies.contains hash then (.unknownTechnology, s)
  else if settings.facilityQueueLength ≤ s.queue.length then (.queueFull, s)
  else (.ok, { s with queue := s.queue ++ [hash] })

/-- Carries out the operation that a program asks for: 1 puts the technology of the hash register
in the queue, and 2 takes the oldest one out of it into the hash register. -/
def operate (settings : Settings) (technologies : List TechHash) (s : Stock) (m : Memory) :
    Stock × Memory :=
  if m.facilityOp = 0 then (s, m)
  else if m.facilityOp = 1 then
    let (status, s) := enqueue settings technologies ⟨m.facilityHash, m.length_facilityHash⟩ s
    (s, m.answerFacility status.code)
  else if m.facilityOp = 2 then
    match s.queue with
    | [] => (s, m.answerFacility Status.queueEmpty.code)
    | hash :: queue =>
      ({ s with queue }, (m.setFacilityHash hash.bytes).answerFacility Status.ok.code)
  else (s, m.answerFacility Status.badOperation.code)

/-- Researches the oldest technology of the queue if there are resources for it. -/
def research (settings : Settings) (s : Stock) : Stock :=
  match s.queue with
  | [] => s
  | hash :: queue =>
    if settings.researchCost ≤ s.stored then
      { stored := s.stored - settings.researchCost
        queue
        researched := s.researched ++ [hash] }
    else s

/-- What a facility holds, as an attachment. -/
def Stock.attachment (s : Stock) : Attachment :=
  .facility s.stored s.queue s.researched

end Facility

/-- Runs an entity's facility. A passive one researches too. -/
def Entity.research (settings : Settings) (technologies : List TechHash) (e : Entity) : Entity :=
  match e.attachment with
  | .facility stored queue researched =>
    let stock : Facility.Stock := ⟨stored, queue, researched⟩
    match e.processor with
    | none => { e with attachment := (Facility.research settings stock).attachment }
    | some p =>
      let (stock, memory) := Facility.operate settings technologies stock p.memory
      let stock := Facility.research settings stock
      { e with
        attachment := stock.attachment
        processor := some
          { p with memory := memory.setQueueLength (UInt32.ofNat stock.queue.length) } }
  | _ => e

/-- Runs all facilities. -/
def World.research (settings : Settings) (technologies : List TechHash) (w : World) : World :=
  w.mapEntities (Entity.research settings technologies)

end RobotArena
