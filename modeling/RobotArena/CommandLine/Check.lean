import RobotArena.CommandLine.Output
import RobotArena.Compilation.Workshop
import RobotArena.External.Table

/-!
# Checking a program

`check` compiles a program of a directory once and says what there is to say about it.
-/

namespace RobotArena.CommandLine

/-- A workshop that has the sources of a directory at hand. -/
def workshopOf (sources : List (String × List UInt8)) : Workshop where
  library := sources.foldl (fun l (path, text) => l.set (.ofPath path) (.available text)) {}
  externals := Table.standard.signatures

/-- Compiles a source once. Answers its record and the workshop that has compiled it. -/
def compileOnce (sources : List (String × List UInt8)) (source : SourceId) :
    Option CompilationRecord × Workshop :=
  let scheduler := ({} : Scheduler).request source 0
  let (_, scheduler, workshop) := scheduler.tick Workshop.dispatch (workshopOf sources) 0
  (scheduler.registry.find? source, workshop)

/-- The exit code when the program itself fails. -/
def aborted : UInt8 := 101

/-- What is put out when a compile on the program's own thread ends in an overflow, after what was
printed before. -/
def overflowOutput (printed : List Printed) : Output :=
  { code := aborted, stdout := printed, stderr := ["Error: attempt to negate with overflow"] }

/-- What is put out for a compile that waits for sources. -/
def waitingOutput (source : SourceId) (missing : List SourceId) : Output where
  code := 2
  stderr := s!"{source.render}: waiting on unavailable sources:" ::
    missing.map fun m => s!"  - {m.render}"

/-- What is put out for a compile that is done. -/
def doneOutput (r : CompilationRecord) : Output :=
  let name := r.source.render
  let remarks := r.diagnostics.map fun d => s!"{name}: {d.render}"
  match r.runnable? with
  | some (version, program) =>
    { code := 0
      stdout :=
        [.line s!"{name}: ok ({program.code.length} instructions, version {version})"]
      stderr := remarks }
  | none => { code := 1, stderr := remarks ++ [s!"{name}: compilation failed"] }

/-- Checks a program. -/
def check (sources : List (String × List UInt8)) (program : String) : Output :=
  let source := SourceId.ofPath program
  let (record, workshop) := compileOnce sources source
  if workshop.overflowed then overflowOutput []
  else match record with
    | some r =>
      if r.status = .done then doneOutput r else waitingOutput source workshop.library.fetches
    | none => waitingOutput source workshop.library.fetches

end RobotArena.CommandLine
