import RobotArena.External.Console
import RobotArena.External.Mathematics
import RobotArena.External.Panel
import RobotArena.External.Radio
import RobotArena.External.Storage
import RobotArena.External.Surroundings

/-!
# The table of external functions

The functions that programs can call, each under a number and a name of its own, kept in the
order of their numbers.
-/

namespace RobotArena

/-- Why a function cannot be added to a table. -/
inductive TableError where
  | invalidSignature (signature : Signature) (fault : Signature.Fault)
  | duplicateId (id : UInt16)
  | duplicateName (name : String)
  deriving DecidableEq, Repr

/-- The words for the error. -/
def TableError.message : TableError → String
  | .invalidSignature signature fault => signature.faultMessage fault
  | .duplicateId id => s!"external id {id} registered twice"
  | .duplicateName name => s!"external name '{name}' registered twice"

/-- Functions by number. -/
structure Table where
  functions : List External := []

namespace Table

/-- Puts a function at the place of its number. -/
def place (f : External) : List External → List External
  | [] => [f]
  | g :: rest => if f.signature.id < g.signature.id then f :: g :: rest else g :: place f rest

/-- The function with a number. -/
def find? (t : Table) (id : Int32) : Option External :=
  t.functions.find? fun f => (f.signature.id.toNat : Int) = id.toInt

/-- The signatures, by number. -/
def signatures (t : Table) : List Signature :=
  t.functions.map (·.signature)

/-- Adds a function. A faulty signature is refused first, then a number that is taken, then a name
that is taken. -/
def register (t : Table) (f : External) : Except TableError Table :=
  match f.signature.fault? with
  | some fault => .error (.invalidSignature f.signature fault)
  | none =>
    if t.signatures.any (·.id = f.signature.id) then .error (.duplicateId f.signature.id)
    else if t.signatures.any (·.name = f.signature.name) then
      .error (.duplicateName f.signature.name)
    else .ok ⟨place f t.functions⟩

/-- The functions that every arena has. -/
def standardFunctions : List External :=
  External.mathematics ++ External.console ++ External.radio ++ External.surroundings ++
    External.panel ++ External.storage

/-- The table of the functions that every arena has. -/
def standard : Table :=
  ⟨standardFunctions.foldr place []⟩

end Table

end RobotArena
