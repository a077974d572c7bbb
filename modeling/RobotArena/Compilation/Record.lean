import RobotArena.Compilation.Job

/-!
# Compilation records

What is known of the compile of one source: where it stands, the program that the last finished
compile produced, and whether the owner has yet to be told of a change.
-/

namespace RobotArena

/-- Where the compile of a source stands. -/
inductive CompilationStatus where
  | none
  | scheduled
  | compiling
  | compiled
  | done
  deriving DecidableEq, Repr

namespace CompilationStatus

/-- Every status. -/
def all : List CompilationStatus :=
  [none, scheduled, compiling, compiled, done]

/-- The word for the status. -/
def word : CompilationStatus → String
  | none => "none"
  | scheduled => "scheduled"
  | compiling => "compiling"
  | compiled => "compiled"
  | done => "done"

/-- The status that a word stands for. -/
def ofWord? (w : String) : Option CompilationStatus :=
  all.find? (·.word == w)

end CompilationStatus

/-- The state of the compile of one source. Instants are microseconds. A version of zero means
that no compile has finished. `dirty` says that the owner has not been told of a change. -/
structure CompilationRecord where
  source : SourceId
  status : CompilationStatus := .none
  version : Nat := 0
  scheduledAt : Nat
  progress : Progress := none
  success : Bool := false
  program : Option Program := none
  diagnostics : List Diagnostic := []
  dirty : Bool := false
  lastSyncAt : Option Nat := none
  generation : Nat := 0
  inFlight : Bool := false

/-- Whether two states of progress are the same to the owner. -/
def Progress.same : Progress → Progress → Bool
  | none, none => true
  | some x, some y => x.same y
  | _, _ => false

namespace CompilationRecord

/-- The version and program to run, if the last compile is done and succeeded. -/
def runnable? (r : CompilationRecord) : Option (Nat × Program) :=
  if r.status = .done ∧ r.success then r.program.map (r.version, ·) else none

/-- Moves to another status. -/
def setStatus (r : CompilationRecord) (status : CompilationStatus) : CompilationRecord :=
  if r.status = status then r else { r with status, dirty := true }

/-- Moves to another state of progress. -/
def setProgress (r : CompilationRecord) (progress : Progress) : CompilationRecord :=
  if r.progress.same progress then r else { r with progress, dirty := true }

/-- Notes whether the last compile succeeded. -/
def setSuccess (r : CompilationRecord) (success : Bool) : CompilationRecord :=
  if r.success = success then r else { r with success, dirty := true }

/-- Asks for a compile from an instant on. Diagnostics of an earlier compile are dropped. -/
def schedule (r : CompilationRecord) (at' : Nat) : CompilationRecord :=
  { r with scheduledAt := at', diagnostics := [] }.setStatus .scheduled

/-- Asks for a compile that answers a new request. -/
def reschedule (r : CompilationRecord) (generation now : Nat) : CompilationRecord :=
  { r with generation }.schedule now

/-- Whether a job may be handed out at an instant. -/
def isDue (r : CompilationRecord) (now : Nat) : Bool :=
  r.status = .scheduled && !r.inFlight && r.scheduledAt ≤ now

/-- Notes that a job was handed out. -/
def start (r : CompilationRecord) : CompilationRecord :=
  { r.setStatus .compiling with inFlight := true }

/-- Notes that a job could not be handed out. -/
def postpone (r : CompilationRecord) (at' : Nat) : CompilationRecord :=
  { r with inFlight := false }.schedule at'

/-- Takes over a finished compile: a program, or none if the source has errors. -/
def finish (r : CompilationRecord) (version : Nat) (program : Option Program)
    (diagnostics : List Diagnostic) (status : CompilationStatus) : CompilationRecord :=
  ((({ r with version, program, diagnostics }.setSuccess program.isSome).setProgress
    none).setStatus status)

/-- Notes that the owner has been told. -/
def markSynced (r : CompilationRecord) (now : Nat) : CompilationRecord :=
  { r with dirty := false, lastSyncAt := some now }

/-! ### What each operation writes -/

theorem setStatus_eq (r : CompilationRecord) (status : CompilationStatus) :
    r.setStatus status = { r with status, dirty := r.dirty || r.status ≠ status } := by
  unfold setStatus
  split
  · rename_i same
    simp [← same]
  · rename_i other
    simp [other]

theorem setProgress_eq (r : CompilationRecord) (progress : Progress) :
    r.setProgress progress =
      { r with
        progress := if r.progress.same progress then r.progress else progress
        dirty := r.dirty || !r.progress.same progress } := by
  unfold setProgress
  split <;> rename_i h <;> simp [h]

theorem setSuccess_eq (r : CompilationRecord) (success : Bool) :
    r.setSuccess success = { r with success, dirty := r.dirty || r.success ≠ success } := by
  unfold setSuccess
  split
  · rename_i same
    simp [← same]
  · rename_i other
    simp [other]

theorem schedule_eq (r : CompilationRecord) (at' : Nat) :
    r.schedule at' =
      { r with
        scheduledAt := at', diagnostics := [], status := .scheduled
        dirty := r.dirty || r.status ≠ .scheduled } := by
  rw [schedule, setStatus_eq]

theorem reschedule_eq (r : CompilationRecord) (generation now : Nat) :
    r.reschedule generation now =
      { r with
        generation, scheduledAt := now, diagnostics := [], status := .scheduled
        dirty := r.dirty || r.status ≠ .scheduled } := by
  rw [reschedule, schedule_eq]

theorem start_eq (r : CompilationRecord) :
    r.start =
      { r with status := .compiling, inFlight := true, dirty := r.dirty || r.status ≠ .compiling } := by
  rw [start, setStatus_eq]

theorem postpone_eq (r : CompilationRecord) (at' : Nat) :
    r.postpone at' =
      { r with
        inFlight := false, scheduledAt := at', diagnostics := [], status := .scheduled
        dirty := r.dirty || r.status ≠ .scheduled } := by
  rw [postpone, schedule_eq]

theorem finish_eq (r : CompilationRecord) (version : Nat) (program : Option Program)
    (diagnostics : List Diagnostic) (status : CompilationStatus) :
    r.finish version program diagnostics status =
      { r with
        version, program, diagnostics, status
        success := program.isSome
        progress := if r.progress.same none then r.progress else none
        dirty := r.dirty || r.success ≠ program.isSome || !r.progress.same none ||
          r.status ≠ status } := by
  rw [finish, setSuccess_eq, setProgress_eq, setStatus_eq]

/-- A job is handed out for a record only while it is scheduled and no job of its own is out. -/
theorem isDue_iff (r : CompilationRecord) (now : Nat) :
    r.isDue now = true ↔ r.status = .scheduled ∧ r.inFlight = false ∧ r.scheduledAt ≤ now := by
  simp [isDue, and_assoc]

end CompilationRecord

end RobotArena
