import RobotArena.Compilation.Registry

/-!
# Notices to owners

The owner of a source is told of changes to its record: a notice on where the compile stands and
one for each diagnostic. Notices on one record keep an interval between them.
-/

namespace RobotArena

/-- What the owner of a source is told. -/
inductive Notice where
  | status (source : SourceId) (status : CompilationStatus) (progress : Progress)
      (success : Bool) (version : Int)
  | diagnostic (source : SourceId) (diagnostic : Diagnostic)
  deriving DecidableEq

/-- A notice and the peer it is for. -/
structure Outbound where
  receiver : PeerId
  notice : Notice
  deriving DecidableEq

namespace CompilationRecord

/-- Whether the owner is to be told of the record at an instant. -/
def isSyncDue (r : CompilationRecord) (now interval : Nat) : Bool :=
  r.dirty && r.lastSyncAt.all fun last => interval ≤ now - last

/-- The greatest version that a notice can tell. -/
def maxVersion : Nat := 0x7FFFFFFFFFFFFFFF

/-- The notices on a record. -/
def notices (r : CompilationRecord) : List Notice :=
  .status r.source r.status r.progress r.success (min r.version maxVersion : Nat) ::
    r.diagnostics.map (.diagnostic r.source)

/-- The notices on a record, for its owner. -/
def outbound (r : CompilationRecord) : List Outbound :=
  r.notices.map (⟨r.source.owner, ·⟩)

end CompilationRecord

namespace Registry

/-- The records whose owners are to be told at an instant, by source. -/
def syncDue (g : Registry) (now interval : Nat) : List CompilationRecord :=
  (g.records.filter (·.isSyncDue now interval)).mergeSort fun r t => r.source.le t.source

/-- The notices that are due at an instant, and the registry in which the owners have been
told. -/
def sync (g : Registry) (now interval : Nat) : List Outbound × Registry :=
  ((g.syncDue now interval).flatMap CompilationRecord.outbound,
    { g with
      records := g.records.map fun r =>
        if r.isSyncDue now interval then r.markSynced now else r })

theorem find?_sync (g : Registry) (now interval : Nat) (t : SourceId) :
    (g.sync now interval).2.find? t =
      (g.find? t).map fun r => if r.isSyncDue now interval then r.markSynced now else r := by
  unfold sync find?
  induction g.records with
  | nil => rfl
  | cons r rest ih =>
    have keeps : (if r.isSyncDue now interval then r.markSynced now else r).source = r.source := by
      split <;> rfl
    rw [List.map_cons, List.find?_cons, List.find?_cons, keeps]
    split
    · rfl
    · exact ih

end Registry

end RobotArena
