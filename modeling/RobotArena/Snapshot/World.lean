import RobotArena.Arena.Tick
import RobotArena.Snapshot.Compilation
import RobotArena.Snapshot.Machine

/-!
# Snapshots of the world
-/

namespace RobotArena

/-- The short text of a technology. -/
def TechHash.snapshot (h : TechHash) : Json :=
  .text h.render

/-- The state of an attachment. -/
def Attachment.snapshot (a : Attachment) : Json :=
  .record (("kind", .text a.kind.word) :: match a with
    | .none => []
    | .turret angle cooldown =>
      [("angle", angle.snapshot), ("cooldown", Snapshot.word cooldown)]
    | .extractor stored capacity =>
      [("stored", Snapshot.word stored), ("capacity", Snapshot.word capacity)]
    | .transporter cargo capacity =>
      [("cargo", Snapshot.word cargo), ("capacity", Snapshot.word capacity)]
    | .facility stored queue researched =>
      [("stored", Snapshot.word stored), ("queue", .list TechHash.snapshot queue),
        ("researched", .list TechHash.snapshot researched)])

/-- An entity; of its processor, only whether there is one. -/
def Entity.snapshot (e : Entity) : Json :=
  .record [("id", e.id.snapshot), ("team", e.team.snapshot), ("position", e.position.snapshot),
    ("heading", e.pose.heading.snapshot), ("health", .int e.health.toInt),
    ("drive", .bool e.drive), ("radar", .option Binary32.snapshot e.radar),
    ("peripheral", e.attachment.snapshot), ("processor", .bool e.processor.isSome),
    ("pendrive", .option Pendrive.snapshot e.pendrive)]

/-- A deposit. -/
def Deposit.snapshot (d : Deposit) : Json :=
  .array [d.position.snapshot, Snapshot.word d.amount]

/-- A projectile. -/
def Projectile.snapshot (p : Projectile) : Json :=
  .record [("owner", p.owner.snapshot), ("team", p.team.snapshot),
    ("position", p.position.snapshot), ("velocity", p.velocity.snapshot),
    ("remaining", Snapshot.word p.remaining), ("damage", .int p.damage.toInt)]

/-- Everything in the world. -/
def World.snapshot (w : World) : Json :=
  .record [("len", .nat w.entities.length), ("empty", .bool w.entities.isEmpty),
    ("entities", .list Entity.snapshot w.entities),
    ("resources", .list Deposit.snapshot w.deposits),
    ("projectiles", .list Projectile.snapshot w.projectiles), ("gui", w.panel.snapshot),
    ("outbox", w.sketch.snapshot)]

/-- What happened in a tick. -/
def TickSummary.snapshot (s : TickSummary) : Json :=
  .record [("tick", .nat s.tick), ("scheduler", s.scheduler.snapshot),
    ("instructions", .nat s.instructions),
    ("reloads", .list (fun (id, version) => .array [id.snapshot, .nat version]) s.reloads),
    ("signals", .list (fun (id, signal) => .array [id.snapshot, .text signal.name]) s.signals),
    ("delivered", .nat s.delivered), ("destroyed", .list EntityId.snapshot s.destroyed),
    ("collected", Snapshot.sources s.collected)]

end RobotArena
