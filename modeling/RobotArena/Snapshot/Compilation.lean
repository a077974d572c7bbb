import RobotArena.Compilation.NoticeFormat
import RobotArena.Compilation.Scheduler
import RobotArena.Snapshot.Program

/-!
# Snapshots of compiles
-/

namespace RobotArena

/-- A state of progress; what is not known is shown as no number. -/
def Progress.snapshot (p : Progress) : Json :=
  (p.getD .nan).snapshot

/-- What a job found. -/
def JobOutcome.snapshot : JobOutcome → Json
  | .compiled program dependencies =>
    .record [("status", .text "compiled"), ("program", .record program.members),
      ("dependencies", .list SourceId.snapshot dependencies)]
  | .failed diagnostics dependencies =>
    .record [("status", .text "failed"),
      ("diagnostics", .list Diagnostic.snapshot diagnostics),
      ("dependencies", .list SourceId.snapshot dependencies)]
  | .waiting progress =>
    .record [("status", .text "needs_dependency"), ("progress", progress.snapshot)]

/-- A record: of its program, the number of instructions, and the version that can be run. -/
def CompilationRecord.snapshot (r : CompilationRecord) : Json :=
  .record [("source", r.source.snapshot), ("status", .text r.status.word),
    ("version", .nat r.version), ("scheduled_at", .nat r.scheduledAt),
    ("progress", r.progress.snapshot), ("success", .bool r.success),
    ("program", .option (fun p : Program => .nat p.code.length) r.program),
    ("diagnostics", .list Diagnostic.snapshot r.diagnostics), ("status_changed", .bool r.dirty),
    ("last_sync_at", .option .nat r.lastSyncAt), ("in_flight", .bool r.inFlight),
    ("runnable", .option (fun r : Nat × Program => .nat r.1) r.runnable?)]

/-- The record of a source, if there is one. -/
def Registry.snapshot (g : Registry) (source : SourceId) : Json :=
  .option CompilationRecord.snapshot (g.find? source)

/-- What a tick of the scheduler did. -/
def TickReport.snapshot (r : TickReport) : Json :=
  .record [("dispatched", .nat r.dispatched), ("committed", .nat r.committed),
    ("discarded", .nat r.discarded), ("finalized", .nat r.finalized)]

/-- A notice: the form in which it is sent, with its progress by bits. Progress that is not
finite has no form in which it can be sent. -/
def Notice.snapshot (n : Notice) : Json :=
  match n, n.encode with
  | .status _ _ progress _ _, .object members =>
    let sent := progress.filter Binary32.isFinite
    .object (members.map fun (key, value) =>
      (key, if key == some "progress" then .option Binary32.snapshot sent else value))
  | _, encoded => encoded

/-- A notice and its receiver. -/
def Outbound.snapshot (o : Outbound) : Json :=
  .record [("to", .text o.receiver.render), ("message", o.notice.snapshot)]

end RobotArena
