import RobotArena.CommandLine.Run

/-!
# The program

Reads the files that a call needs, carries the call out, and prints what is put out.
-/

namespace RobotArena.Main

open CommandLine

/-- The bytes of a file, if it can be read. -/
def readFile? (path : String) : IO (Option (List UInt8)) := do
  try return some (← IO.FS.readBinFile path).toList
  catch _ => return none

/-- The files below a directory, each under its path relative to it; `above` is the relative path
of the directory itself. Directories are followed down to a depth. -/
def readFiles (directory : String) (above : String) : Nat → IO (List (String × List UInt8))
  | 0 => return []
  | depth + 1 => do
    let mut files := []
    for entry in ← (← IO.FS.realPath directory).readDir do
      let path := s!"{directory}/{entry.fileName}"
      let name := s!"{above}{entry.fileName}"
      match ← readFile? path with
      | some bytes => files := (name, bytes) :: files
      | none => files := (← readFiles path s!"{name}/" depth) ++ files
    return files

/-- How deep directories are followed. -/
def maxDepth : Nat := 256

/-- The sources in a directory, if all of it can be read. -/
def readSources? (directory : String) : IO (Option (List (String × List UInt8))) := do
  try return some (← readFiles directory "" maxDepth)
  catch _ => return none

/-- The variables of the environment that matter. -/
def readVariables : IO (List (String × String)) := do
  let mut found := []
  for o in Override.all do
    if let some value ← IO.getEnv o.name then
      found := (o.name, value) :: found
  return found

/-- What a call finds. -/
def look (call : Invocation) : IO Inputs := do
  let config ← match call.config with
    | some path => readFile? path
    | none => pure none
  return { config, sources := ← readSources? call.dir, environment := ← readVariables }

/-- Prints what is put out, and answers the exit code. -/
def put (output : Output) : IO UInt32 := do
  for printed in output.stdout do
    IO.println printed.render
  for line in output.stderr do
    IO.eprintln line
  return output.code.toUInt32

/-- Runs ticks at the pace of the settings, and prints notices as they come. -/
def runPaced (ticks : Nat) (start : Session) : IO Session := do
  let mut s := start
  let opened ← IO.monoNanosNow
  let length := s.arena.settings.tickLength
  for tick in [0:ticks] do
    let passed := ((← IO.monoNanosNow) - opened) / 1000
    IO.sleep (UInt32.ofNat ((tick * length - passed) / 1000))
    let now := ((← IO.monoNanosNow) - opened) / 1000
    let (printed, next) := s.tick now
    s := next
    if s.isAborted then break
    for p in printed do
      IO.println p.render
    if s.robot?.isNone then break
  return s

/-- Carries out a call. A run that is to keep the pace of the settings prints while it runs. -/
def execute (call : Invocation) : IO UInt32 := do
  let found ← look call
  match call, found.sources with
  | .run _ program config o, some sources =>
    match found.settings config o with
    | .error _ => put (call.execute found)
    | .ok settings =>
      match Session.start settings sources program o with
      | .error e => put (unusableOutput e.message)
      | .ok s =>
        if o.realtime && settings.tickLength != 0 then
          let s ← runPaced o.ticks s
          if s.isAborted then put (overflowOutput [])
          else put { code := 0, stdout := [.report s.report] }
        else put (call.execute found)
  | _, _ => put (call.execute found)

end RobotArena.Main

/-- Carries out the call that the arguments ask for. -/
def main (args : List String) : IO UInt32 :=
  match RobotArena.CommandLine.Invocation.ofArguments args with
  | .ok call => RobotArena.Main.execute call
  | .error refusal => RobotArena.Main.put refusal.output
