import RobotArena.Binary32.Basic
import RobotArena.Json.Basic

/-!
# Reading members

A record is read from an object or from an array. An object may hold members that are not asked
for; its keys must be texts, and a member that is asked for must not be repeated. An array holds
the members by position and may end early, but not late.
-/

namespace RobotArena.Json

/-- The members that were asked for and found, each at most once. -/
abbrev Fields := List (String × Json)

/-- The members with the given names. -/
def fields? (names : List String) : Json → Option Fields
  | .object members => do
    guard (members.all (·.1.isSome))
    let known := members.filterMap fun (key, value) =>
      key.bind fun k => if names.contains k then some (k, value) else none
    guard ((known.map (·.1)).eraseDups.length = known.length)
    return known
  | .array items => if items.length ≤ names.length then some (names.zip items) else none
  | _ => none

/-- A member that has to be there. -/
def Fields.required {α : Type} (fields : Fields) (name : String) (read : Json → Option α) :
    Option α :=
  (fields.lookup name).bind read

/-- A member that may be left out. -/
def Fields.optional {α : Type} (fields : Fields) (name : String) (absent : α)
    (read : Json → Option α) : Option α :=
  match fields.lookup name with
  | none => some absent
  | some value => read value

/-- An integer in a range. -/
def toInt? (least greatest : Int) : Json → Option Int
  | .number n => do
    let i ← n.integer?
    if least ≤ i ∧ i ≤ greatest then some i else none
  | _ => none

/-- A natural number up to a limit. -/
def toNat? (greatest : Nat) (value : Json) : Option Nat :=
  (toInt? 0 greatest value).map Int.toNat

/-- A truth value. -/
def toBool? : Json → Option Bool
  | .bool b => some b
  | _ => none

/-- A text. -/
def toText? : Json → Option String
  | .string s => s
  | _ => none

/-- A list of texts. -/
def toTexts? : Json → Option (List String)
  | .array items => items.mapM toText?
  | _ => none

/-- A single-precision number. An integer is rounded once, and any other number first to double
precision. -/
def toBinary32? : Json → Option Binary32
  | .number n =>
    match n.integer? with
    | some i =>
      let m := Binary32.ofFloat32 (UInt64.ofNat i.natAbs).toFloat32
      some (if i < 0 then -m else m)
    | none => n.toFloat?.map Binary32.ofFloat
  | _ => none

end RobotArena.Json
