import RobotArena.World.Device

/-!
# Arithmetic

Units and health are counted in numbers of 32 bits. An update is a sum or a difference of such numbers that
a tick needs, with its operands. It fits if the type has the exact result; a tick with an update that does
not fit comes to no end.

What is here named `updates` follows what the devices do step by step: it makes the same choices, and takes
the state between two steps from them.
-/

namespace RobotArena

/-- An update: of what extractors hold, deposits, the room for cargo, cargo, what facilities hold, and
health. -/
inductive Update where
  | gain (stored amount : UInt32)
  | draw (left amount : UInt32)
  | room (capacity held : UInt32)
  | give (stored moved : UInt32)
  | load (cargo moved : UInt32)
  | unload (cargo moved : UInt32)
  | store (stored cargo : UInt32)
  | spend (stored cost : UInt32)
  | hit (health damage : Int32)
  deriving DecidableEq, Repr

namespace Update

/-- The exact result. -/
def exact : Update → Int
  | gain a b | load a b | store a b => a.toNat + b.toNat
  | draw a b | room a b | give a b | unload a b | spend a b => a.toNat - b.toNat
  | hit health damage => health.toInt - damage.toInt

/-- What is computed, which may be another number. -/
def computed : Update → Int
  | gain a b | load a b | store a b => (a + b).toNat
  | draw a b | room a b | give a b | unload a b | spend a b => (a - b).toNat
  | hit health damage => (health - damage).toInt

/-- Whether the type of the operands has the exact result. -/
def fits (u : Update) : Bool :=
  match u with
  | hit .. => -2147483648 ≤ u.exact && u.exact ≤ 2147483647
  | _ => 0 ≤ u.exact && u.exact < 4294967296

end Update

/-! ### Extractors -/

def Extractor.updates (settings : Settings) (position : Vec2) (stored capacity : UInt32)
    (deposits : List Deposit) : List Update :=
  if capacity ≤ stored then []
  else match deposit? settings position deposits with
    | none => []
    | some (_, d) =>
      let amount := min (min settings.extractionAmount d.amount) (capacity - stored)
      [.room capacity stored, .draw d.amount amount, .gain stored amount]

def Entity.extractorUpdates (settings : Settings) (e : Entity) (deposits : List Deposit) : List Update :=
  match e.attachment, e.processor with
  | .extractor stored capacity, some p =>
    if p.memory.extractionRequested then Extractor.updates settings e.position stored capacity deposits
    else []
  | _, _ => []

def Extractor.allUpdates (settings : Settings) : List Entity → List Deposit → List Update
  | [], _ => []
  | e :: rest, deposits =>
    e.extractorUpdates settings deposits ++ allUpdates settings rest (e.extract settings deposits).2

/-! ### Transporters -/

namespace Transporter

def tradeUpdates (cargo capacity : UInt32) : Attachment → List Update
  -- cargo is left alone if nothing is moved
  | .extractor stored _ =>
    let moved := min stored (capacity - cargo)
    .room capacity cargo :: .give stored moved :: if moved = 0 then [] else [.load cargo moved]
  | .facility stored _ _ => .store stored cargo :: if cargo = 0 then [] else [.unload cargo cargo]
  | _ => []

def updates (settings : Settings) (w : World) (r : Request) : List Update :=
  match (w.find? r.entity).map Entity.attachment with
  | some (.transporter cargo capacity) =>
    match partner? settings r w.entities with
    | none => []
    | some partner => tradeUpdates cargo capacity partner.attachment
  | _ => []

def allUpdates (settings : Settings) : List Request → World → List Update
  | [], _ => []
  | r :: rest, w => updates settings w r ++ allUpdates settings rest (transfer settings w r)

end Transporter

/-! ### Facilities -/

def Facility.updates (settings : Settings) (s : Stock) : List Update :=
  match s.queue with
  | [] => []
  | _ :: _ => if settings.researchCost ≤ s.stored then [.spend s.stored settings.researchCost] else []

def Entity.facilityUpdates (settings : Settings) (technologies : List TechHash) (e : Entity) :
    List Update :=
  match e.attachment with
  | .facility stored queue researched =>
    let stock : Facility.Stock := ⟨stored, queue, researched⟩
    match e.processor with
    | none => Facility.updates settings stock
    | some p =>
      Facility.updates settings (Facility.operate settings technologies stock p.memory).1
  | _ => []

/-! ### Ticks -/

def Device.updates (settings : Settings) (technologies : List TechHash) (w : World) :
    Device → List Update
  | extractor => Extractor.allUpdates settings w.entities w.deposits
  | transporter =>
    Transporter.allUpdates settings (w.entities.filterMap Transporter.request?)
      (w.mapEntities Transporter.clear)
  | facility => w.entities.flatMap (Entity.facilityUpdates settings technologies)
  | _ => []

namespace World

def deviceUpdates (settings : Settings) (technologies : List TechHash) : List Device → World → List Update
  | [], _ => []
  | d :: rest, w =>
    d.updates settings technologies w ++
      deviceUpdates settings technologies rest (d.run settings technologies w)

def launchUpdates (settings : Settings) (w : World) (p : Projectile) : List Update :=
  match (p.advance.target? settings.hitRadius w.entities).bind w.find? with
  | some e => [.hit e.health p.damage]
  | none => []

def flightUpdates (settings : Settings) : List Projectile → World → List Update
  | [], _ => []
  | p :: rest, w => w.launchUpdates settings p ++ flightUpdates settings rest (w.launch settings p).1

/-- The updates of a tick, after the programs have run. -/
def updates (settings : Settings) (technologies : List TechHash) (w : World) : List Update :=
  let v := ((w.runDevices settings technologies).deliver settings).2
  deviceUpdates settings technologies Device.all w ++ flightUpdates settings v.projectiles v

/-- Whether an update of a tick does not fit. -/
def overflows (settings : Settings) (technologies : List TechHash) (w : World) : Bool :=
  (w.updates settings technologies).any (!·.fits)

end World

end RobotArena
