import RobotArena.Assembly.Basic
import RobotArena.Compilation.Library

/-!
# Compile jobs

A job compiles one source as it is at the moment the job runs. It looks up the source and
everything the source includes, starts the fetches that are needed, and reports what it found
together with the sources it read.
-/

namespace RobotArena

/-- A compile of a source. The generation tells which request for the source it answers. -/
structure Job where
  source : SourceId
  generation : Nat
  deriving DecidableEq, Repr

/-- How far the fetches are that a compile waits for; nothing if that is not known. -/
abbrev Progress := Option Binary32

/-- What a job found. Dependencies are the sources it read besides its own, in order. -/
inductive JobOutcome where
  | compiled (program : Program) (dependencies : List SourceId)
  | waiting (progress : Progress)
  | failed (diagnostics : List Diagnostic) (dependencies : List SourceId)
  deriving DecidableEq

/-- A job's report. -/
structure JobResult where
  source : SourceId
  generation : Nat
  outcome : JobOutcome
  deriving DecidableEq

/-- The mean of the outstanding fractions. -/
def Progress.mean (fractions : List Binary32) : Progress :=
  if fractions.isEmpty then none
  else
    let m := fractions.foldl (· + ·) (-0) / Binary32.ofNat fractions.length
    if m.isNaN then none else some m

namespace Job

/-- Compiles the text of the job's source. -/
def compile (job : Job) (externals : List Signature) (library : Library) (text : List UInt8) :
    JobOutcome × Library :=
  let e := Assembly.expand (library.textsOf job.source.owner) job.source.path text
  let asked := e.asked.map job.source.sibling
  let outcome := match Assembly.Outcome.ofExpansion externals e with
    | .compiled program => .compiled program asked
    | .failed diagnostics => .failed diagnostics asked
    | .incomplete => .waiting (.mean (asked.filterMap library.outstanding?))
  (outcome, asked.foldl Library.fetch library)

/-- Runs the job. -/
def outcome (job : Job) (externals : List Signature) (library : Library) :
    JobOutcome × Library :=
  match library.text? job.source with
  | some text => job.compile externals library text
  | none =>
    (.waiting (.mean (library.outstanding? job.source).toList), library.fetch job.source)

/-- Whether the compile of the job ends in an overflow. Such a job finds nothing. -/
def overflows (job : Job) (externals : List Signature) (library : Library) : Bool :=
  (library.text? job.source).any fun text =>
    (Assembly.compileChecked? externals (library.textsOf job.source.owner) job.source.path
      text).isNone

/-- Runs the job and reports. -/
def run (job : Job) (externals : List Signature) (library : Library) : JobResult × Library :=
  let (outcome, library) := job.outcome externals library
  (⟨job.source, job.generation, outcome⟩, library)

end Job

end RobotArena
