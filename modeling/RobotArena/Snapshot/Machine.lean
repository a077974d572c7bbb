import RobotArena.Machine.Engine
import RobotArena.Snapshot.Program

/-!
# Snapshots of processors
-/

namespace RobotArena

/-- The rows of sixteen bytes that hold something, each behind its address. -/
def Memory.snapshot (m : Memory) : Json :=
  .array <| (List.range 1024).filterMap fun row =>
    let data := m.bytesAt (16 * row) 16
    if data.all (· == 0) then none
    else some (.text (Text.hexNat 4 (16 * row) ++ ":" ++ Text.hexBytes data))

/-- The size of the memory and how many of its bytes hold something, for logs. -/
def Memory.describe (m : Memory) : String :=
  let used := (m.bytes.toList.filter (· != 0)).length
  s!"MemoryImage \x7b size: {size}, nonzero_bytes: {used} \x7d"

/-- A beam. -/
def Beam.snapshot (b : Beam) : Json :=
  .array [b.direction.snapshot, b.spread.snapshot]

/-- A transmission. -/
def Transmission.snapshot (t : Transmission) : Json :=
  .record [("sender", t.sender.snapshot), ("team", t.team.snapshot),
    ("origin", t.origin.snapshot), ("payload", Snapshot.bytes t.payload),
    ("beam", .option Beam.snapshot t.beam)]

/-- The word for a kind of element. -/
def ElementKind.word : ElementKind → String
  | .button => "button"
  | .label => "label"
  | .gauge => "gauge"

/-- An element under its number. -/
def Element.snapshot (id : UInt32) (e : Element) : Json :=
  .record [("id", Snapshot.word id), ("owner", e.owner.snapshot), ("team", e.team.snapshot),
    ("kind", .text e.kind.word), ("position", e.position.snapshot),
    ("value", e.value.snapshot), ("label", .text e.label)]

/-- The elements of a panel. -/
def Panel.snapshot (p : Panel) : Json :=
  .list (fun (id, e) => Element.snapshot id e) p.elements

/-- The blocks of a pendrive, without the zeros at their ends. -/
def Pendrive.snapshot (d : Pendrive) : Json :=
  .list (fun block => Snapshot.bytes (block.reverse.dropWhile (· == 0)).reverse) d.blocks

/-- A line. -/
def SketchLine.snapshot (l : SketchLine) : Json :=
  .array [l.entity.snapshot, l.start.snapshot, l.stop.snapshot, Snapshot.word l.color]

/-- A label. -/
def SketchLabel.snapshot (l : SketchLabel) : Json :=
  .array [l.entity.snapshot, l.position.snapshot, .text l.text]

/-- A sketch. -/
def Sketch.snapshot (s : Sketch) : Json :=
  .record [("full", .bool s.isFull), ("lines", .list SketchLine.snapshot s.lines),
    ("labels", .list SketchLabel.snapshot s.labels)]

/-- What a program can change of its host. -/
def Host.snapshot (h : Host) : Json :=
  .record [("outbox", h.sketch.snapshot), ("gui", h.panel.snapshot),
    ("pendrive", .option Pendrive.snapshot h.pendrive)]

/-- The items of all queues, oldest first. -/
def Queues.snapshot (q : Queues) : Json :=
  .record [("inbound", .list Transmission.snapshot q.inbound.items),
    ("outbound", .list Transmission.snapshot q.outbound.items),
    ("commands", .list Snapshot.bytes q.commands.items),
    ("stdin", .list Snapshot.bytes q.stdin.items),
    ("ui_events", .list Snapshot.word q.uiEvents.items)]

/-- The general registers. -/
def Snapshot.general (words : Vector UInt32 16) : Json :=
  .list Snapshot.word words.toList

/-- All registers. -/
def Registers.snapshot (r : Registers) : Json :=
  .record [("gpr", Snapshot.general r.general), ("pc", Snapshot.word r.pc),
    ("sp", Snapshot.word r.sp)]

/-- A traced instruction. -/
def TraceEntry.snapshot (e : TraceEntry) : Json :=
  .record [("pc", Snapshot.word e.pc), ("ins", .text e.instruction.render),
    ("gpr", Snapshot.general e.general)]

/-- A trace. -/
def Trace.snapshot (t : Trace) : Json :=
  .list TraceEntry.snapshot t.entries.toList

/-- A trap. -/
def Trap.snapshot (t : Trap) : Json :=
  .record [("signal", .text t.signal.name), ("crash", .bool t.signal.isCrash),
    ("pc", .option Snapshot.word t.pc?), ("message", .text t.message)]

/-- How a slice ended. -/
def SliceEnd.snapshot : SliceEnd → Json
  | .exhausted => .text "budget_exhausted"
  | .yielded => .text "yielded"
  | .stopped t => t.snapshot

/-- A processor, without its memory, queues and trace. -/
def Processor.snapshot (p : Processor) : Json :=
  .record [("source", .option SourceId.snapshot p.source), ("bound", .bool p.binding.isSome),
    ("bound_version", .nat p.version), ("signal", .text p.signal.name),
    ("crash_context", .option Snapshot.word p.crashContext),
    ("crash_message", .option .text p.crashMessage?), ("regs", p.registers.snapshot)]

/-- What a processor did in a tick. -/
def TickOutcome.snapshot : TickOutcome → Json
  | .idle => .text "idle"
  | .reloaded version => .record [("reloaded", .nat version)]
  | .executed n yielded => .record [("executed", .nat n), ("yielded", .bool yielded)]
  | .signaled signal n => .record [("signal", .text signal.name), ("executed", .nat n)]

end RobotArena
