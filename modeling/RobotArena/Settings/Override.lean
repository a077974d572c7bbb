import RobotArena.Settings.Format
import RobotArena.Text.Blank
import RobotArena.Text.Integer
import RobotArena.Text.Quoted

/-!
# Settings from a file and the environment

Variables of the environment override what the file gives. They are looked at in a fixed order,
and the first one with a value that cannot be read decides.
-/

namespace RobotArena

/-- Why there are no settings. -/
inductive SettingsError where
  | unreadable
  | malformed
  | invalidOverride (name value : String)
  deriving DecidableEq, Repr

/-- The words for a value that cannot be read. -/
def SettingsError.message? : SettingsError → Option String
  | .unreadable | .malformed => none
  | .invalidOverride name value => some s!"invalid value {Text.quote value} for {name}"

/-- What a variable of the environment sets: how its value is read and put into the settings. -/
structure Override where
  name : String
  read? : List Char → Settings → Option Settings

namespace Override

/-- Sets a number of at most `limit`. -/
def ofNat (name : String) (limit : Nat) (set : Nat → Settings → Settings) : Override where
  name
  read? value s := (Text.readUnsigned? limit value).map (set · s)

/-- The truth value that a word stands for. -/
def readBool? (value : List Char) : Option Bool :=
  if value = "true".toList then some true
  else if value = "false".toList then some false
  else none

/-- The variables that are looked at, in order. -/
def all : List Override :=
  [.ofNat "BOTFORGE_TICK_HZ" Settings.maxWord fun n s => { s with tickRate := n },
    .ofNat "BOTFORGE_INSTRUCTION_BUDGET" Settings.maxWord fun n s =>
      { s with engine := { s.engine with instructionBudget := n } },
    { name := "BOTFORGE_TRACE"
      read? := fun value s => (readBool? value).map fun b =>
        { s with engine := { s.engine with traceEnabled := b } } },
    .ofNat "BOTFORGE_RETRY_BACKOFF_MS" Settings.maxLong fun n s =>
      { s with scheduler := { s.scheduler with retryBackoff := n } },
    .ofNat "BOTFORGE_SYNC_INTERVAL_MS" Settings.maxLong fun n s =>
      { s with scheduler := { s.scheduler with syncInterval := n } },
    .ofNat "BOTFORGE_GC_INTERVAL_TICKS" Settings.maxLong fun n s =>
      { s with collectionInterval := n }]

end Override

namespace Settings

/-- Overrides one setting if the environment holds its variable. Blanks around the value do not
matter. -/
def override (env : List (String × String)) (o : Override) (s : Settings) :
    Except SettingsError Settings :=
  match env.lookup o.name with
  | none => .ok s
  | some value =>
    match o.read? (Text.trim value.toList) s with
    | some s => .ok s
    | none => .error (.invalidOverride o.name value)

/-- Overrides settings in order, up to the first value that cannot be read. Answers the settings
as far as they were overridden, and what stopped it. -/
def overrideAll (env : List (String × String)) :
    List Override → Settings → Settings × Option SettingsError
  | [], s => (s, none)
  | o :: rest, s =>
    match s.override env o with
    | .ok s => overrideAll env rest s
    | .error e => (s, some e)

/-- Overrides the settings for which the environment holds variables. -/
def applyOverrides (s : Settings) (env : List (String × String)) :
    Settings × Option SettingsError :=
  overrideAll env Override.all s

/-- The settings that a file gives. -/
def ofFile (bytes : List UInt8) : Except SettingsError Settings :=
  match Text.decode? bytes with
  | none => .error .unreadable
  | some cs => match (Json.read? cs).bind decode? with
    | none => .error .malformed
    | some s => .ok s

/-- The settings of a file, or the defaults without one, under the overrides of an environment. A
fault of the file is found before one of the environment. -/
def load (file : Option (List UInt8)) (env : List (String × String)) :
    Except SettingsError Settings := do
  let s ← match file with
    | none => pure {}
    | some bytes => ofFile bytes
  match s.applyOverrides env with
  | (s, none) => return s
  | (_, some e) => throw e

end Settings

end RobotArena
