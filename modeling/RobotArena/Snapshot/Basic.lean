import RobotArena.Geometry
import RobotArena.Identity
import RobotArena.Json.Basic
import RobotArena.Text.Hex

/-!
# Snapshots

A snapshot shows a value of the arena as JSON for tools that inspect it. Bytes are shown in
hexadecimal. Numbers are shown by their bits, so that a snapshot loses nothing; all that are no
number look the same.
-/

namespace RobotArena

/-- Bytes. -/
def Snapshot.bytes (data : List UInt8) : Json :=
  .text (Text.hexBytes data)

/-- A word. -/
def Snapshot.word (w : UInt32) : Json :=
  .nat w.toNat

/-- A number. -/
def Binary32.snapshot (x : Binary32) : Json :=
  .text (if x.isNaN then "nan" else Text.hexNat 8 x.bits.toNat)

/-- A point. -/
def Vec2.snapshot (p : Vec2) : Json :=
  .array [p.x.snapshot, p.y.snapshot]

/-- An entity. -/
def EntityId.snapshot (id : EntityId) : Json :=
  Snapshot.word id.number

/-- A team. -/
def TeamId.snapshot (id : TeamId) : Json :=
  .nat id.number.toNat

/-- A source. -/
def SourceId.snapshot (s : SourceId) : Json :=
  .text s.render

/-- Sources without an order of their own. -/
def Snapshot.sources (sources : List SourceId) : Json :=
  .list SourceId.snapshot (SourceId.sort sources)

end RobotArena
