import RobotArena.Binary32.Literal
import RobotArena.Text.Blank
import RobotArena.World.Basic

/-!
# Deposits on the command line

A deposit is given as its two coordinates and its amount, with commas between them.
-/

namespace RobotArena.CommandLine

/-- Why a text is no deposit. -/
inductive ResourceError where
  | form (text : String)
  | badX (text : String) (reason : Binary32.LiteralError)
  | badY (text : String) (reason : Binary32.LiteralError)
  | badAmount (text : String) (reason : Text.IntegerError)
  deriving DecidableEq, Repr

/-- The words for the error. -/
def ResourceError.message : ResourceError → String
  | .form text => s!"expected x,y,amount, got '{text}'"
  | .badX text reason => s!"bad x '{text}': {reason.message}"
  | .badY text reason => s!"bad y '{text}': {reason.message}"
  | .badAmount text reason => s!"bad amount '{text}': {reason.message}"

/-- Reads a deposit. -/
def readResource (text : String) : Except ResourceError Deposit :=
  match (Text.pieces (· == ',') text.toList).map Text.trim with
  | [x, y, amount] => do
    let px ← (Binary32.readLiteral x).mapError (.badX (.ofList x))
    let py ← (Binary32.readLiteral y).mapError (.badY (.ofList y))
    let n ← (Text.readUnsigned 0xFFFFFFFF amount).mapError (.badAmount (.ofList amount))
    return ⟨⟨px, py⟩, UInt32.ofNat n⟩
  | _ => .error (.form text)

end RobotArena.CommandLine
