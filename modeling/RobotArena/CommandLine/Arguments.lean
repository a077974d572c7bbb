import RobotArena.CommandLine.Resource

/-!
# Command-line arguments

The program is called with the word for what it is to do and that command's arguments. The
arguments are read from left to right. A value that stands apart from its option is looked at when
the argument after it has been recognised, so one that is not recognised is reported first.
-/

namespace RobotArena.CommandLine

/-! ### Commands and their parameters -/

/-- What the program can do. -/
inductive Command where
  | check
  | run
  deriving DecidableEq, Repr

/-- The word for the command. -/
def Command.word : Command → String
  | .check => "check"
  | .run => "run"

/-- The command that a word stands for. -/
def Command.ofWord? (w : String) : Option Command :=
  [.check, .run].find? fun c => c.word == w

/-- A parameter that comes with a value. -/
inductive Valued where
  | dir
  | ticks
  | budget
  | config
  | peripheral
  | stdin
  | resource
  deriving DecidableEq, Repr

/-- A parameter without a value. -/
inductive Switch where
  | drive
  | radar
  | pendrive
  | inline
  | realtime
  | help
  deriving DecidableEq, Repr

/-- A parameter. -/
inductive Parameter where
  | valued (v : Valued)
  | switch (s : Switch)
  deriving DecidableEq, Repr

/-- The long and short names of a parameter. -/
structure Spelling where
  long : String
  short : Option Char
  parameter : Parameter

/-- The parameters of a command. -/
def Command.spellings : Command → List Spelling
  | .check => [⟨"dir", some 'd', .valued .dir⟩, ⟨"help", some 'h', .switch .help⟩]
  | .run =>
    [⟨"dir", some 'd', .valued .dir⟩, ⟨"ticks", some 't', .valued .ticks⟩,
      ⟨"budget", some 'b', .valued .budget⟩, ⟨"config", some 'c', .valued .config⟩,
      ⟨"peripheral", some 'p', .valued .peripheral⟩, ⟨"drive", none, .switch .drive⟩,
      ⟨"radar", none, .switch .radar⟩, ⟨"pendrive", none, .switch .pendrive⟩,
      ⟨"stdin", none, .valued .stdin⟩, ⟨"resource", none, .valued .resource⟩,
      ⟨"inline", none, .switch .inline⟩, ⟨"realtime", none, .switch .realtime⟩,
      ⟨"help", some 'h', .switch .help⟩]

/-- The parameter with a long name. -/
def Command.long? (c : Command) (name : String) : Option Parameter :=
  (c.spellings.find? (·.long == name)).map (·.parameter)

/-- The parameter with a short name. -/
def Command.short? (c : Command) (name : Char) : Option Parameter :=
  (c.spellings.find? (·.short == some name)).map (·.parameter)

/-! ### Refusals -/

/-- What help is about. -/
inductive HelpTopic where
  | overview
  | command (c : Command)
  | help
  deriving DecidableEq, Repr

/-- Why the arguments are not carried out. -/
inductive Refusal where
  | help (topic : HelpTopic)
  | missingCommand
  | unknownCommand (word : String)
  | unknownArgument (argument : String)
  | unexpectedValue (argument : String)
  | missingValue (v : Valued)
  | repeated (p : Parameter)
  | invalidValue (v : Valued) (value : String)
  | invalidResource (value : String) (reason : ResourceError)
  | missingProgram
  deriving DecidableEq, Repr

/-! ### Values -/

/-- The arguments of a command as far as they have been read. -/
structure Draft where
  program : Option String := none
  dir : Option String := none
  ticks : Option Nat := none
  budget : Option Nat := none
  config : Option String := none
  attachment : Option AttachmentKind := none
  stdin : List String := []
  resources : List Deposit := []
  switches : List Switch := []

/-- The greatest budget. -/
def maxBudget : Nat := 0xFFFFFFFF

/-- Reads a budget. A zero may have a minus sign. -/
def readBudget? (text : String) : Option Nat :=
  match text.toList with
  | '-' :: digits =>
    if !digits.isEmpty && digits.all (· == '0') then some 0 else none
  | cs => Text.readUnsigned? maxBudget cs

/-- Reads a number of ticks. -/
def readTicks? (text : String) : Option Nat :=
  Text.readUnsigned? 0xFFFFFFFFFFFFFFFF text.toList

/-- Reads a path, which must not be empty. -/
def readPath? (text : String) : Option String :=
  if text.isEmpty then none else some text

namespace Draft

/-- Sets something that may be set once. -/
def once {α : Type} (v : Valued) (text : String) (old new : Option α) :
    Except Refusal (Option α) :=
  if old.isSome then .error (.repeated (.valued v))
  else match new with
    | some a => .ok (some a)
    | none => .error (.invalidValue v text)

/-- Takes in a value. -/
def take (d : Draft) (v : Valued) (text : String) : Except Refusal Draft :=
  match v with
  | .dir => do return { d with dir := ← once v text d.dir (readPath? text) }
  | .ticks => do return { d with ticks := ← once v text d.ticks (readTicks? text) }
  | .budget => do return { d with budget := ← once v text d.budget (readBudget? text) }
  | .config => do return { d with config := ← once v text d.config (readPath? text) }
  | .peripheral => do
    return { d with attachment := ← once v text d.attachment (AttachmentKind.ofWord? text) }
  | .stdin => .ok { d with stdin := d.stdin ++ [text] }
  | .resource =>
    match readResource text with
    | .ok r => .ok { d with resources := d.resources ++ [r] }
    | .error e => .error (.invalidResource text e)

/-- Takes in a switch. -/
def turnOn (d : Draft) (s : Switch) : Except Refusal Draft :=
  if d.switches.contains s then .error (.repeated (.switch s))
  else .ok { d with switches := s :: d.switches }

end Draft

/-! ### Reading -/

/-- The state of reading: the command, its arguments so far, the option that the next argument is
the value of, the value that has not been looked at yet, and whether everything that follows is a
program. -/
structure Reading where
  command : Command
  draft : Draft := {}
  awaiting : Option Valued := none
  held : Option (Valued × String) := none
  trailing : Bool := false

namespace Reading

/-- Looks at the value that has not been looked at yet. An option that still awaits its value does
not get one. -/
def settle (r : Reading) : Except Refusal Reading :=
  match r.awaiting, r.held with
  | some v, _ => .error (.missingValue v)
  | none, none => .ok r
  | none, some (v, text) => do return { r with draft := ← r.draft.take v text, held := none }

/-- Takes in a switch, or asks for help. -/
def switch (r : Reading) (s : Switch) : Except Refusal Reading := do
  let r ← r.settle
  if s = .help then throw (.help (.command r.command))
  return { r with draft := ← r.draft.turnOn s }

/-- Takes in an option with the value that is attached to it. -/
def attached (r : Reading) (v : Valued) (text : String) : Except Refusal Reading := do
  let r ← r.settle
  return { r with draft := ← r.draft.take v text }

/-- Takes in an option whose value is the next argument. -/
def await (r : Reading) (v : Valued) : Except Refusal Reading := do
  let r ← r.settle
  return { r with awaiting := some v }

/-- Reads an argument that starts with two hyphens, without them. -/
def long (r : Reading) (argument : List Char) : Except Refusal Reading :=
  let name := String.ofList (argument.takeWhile (· != '='))
  match r.command.long? name, argument.dropWhile (· != '=') with
  | none, _ => .error (.unknownArgument s!"--{name}")
  | some (.switch s), [] => r.switch s
  | some (.switch _), _ => .error (.unexpectedValue s!"--{name}")
  | some (.valued v), [] => r.await v
  | some (.valued v), _ :: value => r.attached v (.ofList value)

/-- Reads an argument that starts with one hyphen, without it. -/
def short (r : Reading) : List Char → Except Refusal Reading
  | [] => .ok r
  | c :: rest =>
    match r.command.short? c, rest with
    | none, _ => .error (.unknownArgument s!"-{c}")
    | some (.switch s), _ => do short (← r.switch s) rest
    | some (.valued v), [] => r.await v
    | some (.valued v), '=' :: value => r.attached v (.ofList value)
    | some (.valued v), value => r.attached v (.ofList value)

/-- Takes in a program. -/
def positional (r : Reading) (argument : String) : Except Refusal Reading :=
  if r.draft.program.isSome then .error (.unknownArgument argument)
  else do
    let r ← r.settle
    return { r with draft := { r.draft with program := some argument } }

/-- Reads an argument. -/
def step (r : Reading) (argument : String) : Except Refusal Reading :=
  if r.trailing then r.positional argument
  else match argument.toList with
    | ['-', '-'] => .ok { r with trailing := true }
    | '-' :: '-' :: name => r.long name
    | '-' :: c :: more => r.short (c :: more)
    | _ =>
      match r.awaiting with
      | some v => do
        return { r with awaiting := none, held := some (v, argument) }
      | none => r.positional argument

end Reading

/-! ### Invocations -/

/-- How a program is to be run. -/
structure RunOptions where
  ticks : Nat
  budget : Option Nat
  attachment : AttachmentKind
  drive : Bool
  radar : Bool
  pendrive : Bool
  stdin : List String
  resources : List Deposit
  inline : Bool
  realtime : Bool

/-- What the program is asked to do. -/
inductive Invocation where
  | check (dir program : String)
  | run (dir program : String) (config : Option String) (options : RunOptions)

/-- The directory of the sources. -/
def Invocation.dir : Invocation → String
  | .check dir _ | .run dir .. => dir

/-- The file with the settings. -/
def Invocation.config : Invocation → Option String
  | .check .. => none
  | .run _ _ config _ => config

/-- How many ticks a program is run for. -/
def defaultTicks : Nat := 600

/-- The options of a run. -/
def Draft.options (d : Draft) : RunOptions where
  ticks := d.ticks.getD defaultTicks
  budget := d.budget
  attachment := d.attachment.getD .none
  drive := d.switches.contains .drive
  radar := d.switches.contains .radar
  pendrive := d.switches.contains .pendrive
  stdin := d.stdin
  resources := d.resources
  inline := d.switches.contains .inline
  realtime := d.switches.contains .realtime

/-- The invocation that has been read. -/
def Reading.invocation (r : Reading) : Except Refusal Invocation := do
  let r ← r.settle
  let dir := r.draft.dir.getD "."
  match r.draft.program, r.command with
  | none, _ => throw .missingProgram
  | some program, .check => return .check dir program
  | some program, .run => return .run dir program r.draft.config r.draft.options

/-- Reads what help is asked for. -/
def helpTopic : List String → Except Refusal HelpTopic
  | [] => .ok .overview
  | ["help"] => .ok .help
  | word :: rest =>
    match Command.ofWord? word, rest with
    | some c, [] => .ok (.command c)
    | some _, extra :: _ => .error (.unknownCommand extra)
    | none, _ => .error (.unknownCommand word)

/-- Reads all arguments. -/
def Invocation.ofArguments : List String → Except Refusal Invocation
  | [] => .error .missingCommand
  | word :: rest =>
    match word.toList with
    | '-' :: 'h' :: _ => .error (.help .overview)
    | '-' :: _ :: _ =>
      .error (if word == "--help" then .help .overview else .unknownArgument word)
    | _ =>
      if word == "help" then (helpTopic rest).bind fun topic => .error (.help topic)
      else match Command.ofWord? word with
        | none => .error (.unknownCommand word)
        | some command => do
          (← rest.foldlM Reading.step { command }).invocation

end RobotArena.CommandLine
