import RobotArena.Compilation.Scheduler

/-!
# Where jobs run

A workshop runs jobs against its library. In different modes it runs a job as soon as it gets it,
puts it aside until it is released, or refuses it. A job that ends in an overflow never reports.
-/

namespace RobotArena

/-- What a workshop does with a job. -/
inductive WorkshopMode where
  | run
  | park
  | refuse
  deriving DecidableEq, Repr

/-- A library, the functions that programs may call, the jobs put aside, oldest first, and whether
a job has ended in an overflow. -/
structure Workshop where
  library : Library := {}
  externals : List Signature := []
  mode : WorkshopMode := .run
  parked : List Job := []
  overflowed : Bool := false

/-- Why a job is not handed over. -/
inductive HandOverError where
  | channelClosed
  deriving DecidableEq, Repr

/-- The words for the error. -/
def HandOverError.message : HandOverError → String
  | .channelClosed => "compile result channel closed"

namespace Workshop

/-- Runs a job. -/
def runJob (w : Workshop) (job : Job) : Option JobResult × Workshop :=
  let (result, library) := job.run w.externals w.library
  if job.overflows w.externals w.library then (none, { w with library, overflowed := true })
  else (some result, { w with library })

/-- Takes a job. -/
def dispatch : Dispatcher Workshop := fun job w =>
  match w.mode with
  | .run =>
    let (result, w) := w.runJob job
    (.accepted result.toList, w)
  | .park => (.accepted [], { w with parked := w.parked ++ [job] })
  | .refuse => (.refused, w)

/-- Runs jobs in order. -/
def runJobs (w : Workshop) : List Job → List JobResult × Workshop
  | [] => ([], w)
  | job :: rest =>
    let (result, w) := w.runJob job
    let (results, w) := w.runJobs rest
    (result.toList ++ results, w)

/-- Runs the oldest jobs that were put aside, up to a number of them. -/
def release (w : Workshop) (count : Nat) : List JobResult × Workshop :=
  { w with parked := w.parked.drop count }.runJobs (w.parked.take count)

/-- Runs a job and hands its result over, which fails only after the run if nobody takes it. -/
def handOver (w : Workshop) (job : Job) (closed : Bool) :
    Except HandOverError (Option JobResult) × Workshop :=
  let (result, w) := w.runJob job
  (if closed then .error .channelClosed else .ok result, w)

/-- Hands a job over to be run in the background, which is not done if nobody takes results. -/
def handOverInBackground (w : Workshop) (job : Job) (closed : Bool) :
    Except HandOverError (Option JobResult) × Workshop :=
  if closed then (.error .channelClosed, w)
  else
    let (result, w) := w.runJob job
    (.ok result, w)

end Workshop

end RobotArena
