import RobotArena.CommandLine.Arguments
import RobotArena.Json.Printer

/-!
# What a call of the program puts out
-/

namespace RobotArena.CommandLine

/-- Something printed: a line of text, a value on one line, or a value on several lines. -/
inductive Printed where
  | line (text : String)
  | value (v : Json)
  | report (v : Json)

/-- The printed text. -/
def Printed.render : Printed → String
  | .line text => text
  | .value v => v.render
  | .report v => v.renderPretty

/-- The exit code, what is printed and what is reported as errors. -/
structure Output where
  code : UInt8
  stdout : List Printed := []
  stderr : List String := []

/-- The lines that show when a text is put out. A name in it may hold line ends. -/
def shownLines (text : String) : List String :=
  (Text.lines (text.toList ++ ['\n'])).map String.ofList

/-! ### Help -/

/-- What the program is for. -/
def overviewHelp : List String :=
  ["Compile and run botforge machine programs", "", "Usage: botforge <COMMAND>", "",
    "Commands:", "  check  Compile a program once and print its diagnostics",
    "  run    Run a program on one entity in a headless simulation",
    "  help   Print this message or the help of the given subcommand(s)", "", "Options:",
    "  -h, --help  Print help"]

/-- What the command `check` is for. -/
def checkHelp : List String :=
  ["Compile a program once and print its diagnostics", "",
    "Usage: botforge check [OPTIONS] <PROGRAM>", "", "Arguments:",
    "  <PROGRAM>  Program path relative to the directory", "", "Options:",
    "  -d, --dir <DIR>  Directory holding the program and its includes [default: .]",
    "  -h, --help       Print help"]

/-- What the command `run` is for. -/
def runHelp : List String :=
  ["Run a program on one entity in a headless simulation", "",
    "Usage: botforge run [OPTIONS] <PROGRAM>", "", "Arguments:", "  <PROGRAM>  ", "", "Options:",
    "  -d, --dir <DIR>                [default: .]",
    "  -t, --ticks <TICKS>            Number of ticks to simulate [default: 600]",
    "  -b, --budget <BUDGET>          Instructions per tick (overrides config)",
    "  -c, --config <CONFIG>          JSON config file",
    "  -p, --peripheral <PERIPHERAL>  [default: none] [possible values: none, turret, " ++
      "extractor, transporter, facility]",
    "      --drive                    ", "      --radar                    ",
    "      --pendrive                 ",
    "      --stdin <STDIN>            Console lines queued before the first tick",
    "      --resource <RESOURCES>     Resource node as `x,y,amount`",
    "      --inline                   Compile on the simulation thread instead of a worker pool",
    "      --realtime                 Pace ticks at the configured tick rate",
    "  -h, --help                     Print help"]

/-- What the command `help` is for. -/
def helpHelp : List String :=
  ["Print this message or the help of the given subcommand(s)", "",
    "Usage: botforge help [COMMAND]..."]

/-- The help on a topic. -/
def HelpTopic.lines : HelpTopic → List String
  | .overview => overviewHelp
  | .command .check => checkHelp
  | .command .run => runHelp
  | .help => helpHelp

/-! ### Refusals -/

/-- The name of a parameter in a message. -/
def Parameter.name (p : Parameter) : String :=
  match Command.run.spellings.find? (·.parameter = p) with
  | some spelling => s!"--{spelling.long}"
  | none => ""

/-- The words for a refusal. -/
def Refusal.message : Refusal → String
  | .help _ => ""
  | .missingCommand => "error: a command is required"
  | .unknownCommand word => s!"error: unrecognized subcommand '{word}'"
  | .unknownArgument argument => s!"error: unexpected argument '{argument}' found"
  | .unexpectedValue argument => s!"error: unexpected value for '{argument}' found"
  | .missingValue v =>
    let name := (Parameter.valued v).name
    s!"error: a value is required for '{name}' but none was supplied"
  | .repeated p => s!"error: the argument '{p.name}' cannot be used multiple times"
  | .invalidValue v value =>
    let name := (Parameter.valued v).name
    s!"error: invalid value '{value}' for '{name}'"
  | .invalidResource value reason =>
    s!"error: invalid value '{value}' for '--resource <RESOURCES>': {reason.message}"
  | .missingProgram =>
    "error: the following required arguments were not provided:\n  <PROGRAM>"

/-- The reason for which a value is no deposit. -/
def Refusal.resourceError? : Refusal → Option String
  | .invalidResource _ reason => some reason.message
  | _ => none

/-- Whether the arguments are wrong, and not only help is asked for. -/
def Refusal.isUsageError : Refusal → Bool
  | .help _ => false
  | _ => true

/-- What is put out for a refusal. -/
def Refusal.output (r : Refusal) : Output :=
  match r with
  | .help topic => { code := 0, stdout := topic.lines.map .line }
  | .missingCommand => { code := 2, stderr := overviewHelp }
  | r => { code := 2, stderr := [r.message, "", "For more information, try '--help'."] }

end RobotArena.CommandLine
