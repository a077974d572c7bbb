import RobotArena.External.Call

/-!
# Pendrive functions
-/

namespace RobotArena.External

/-- The robot's pendrive. -/
def pendriveOf (h : Host) : Call Pendrive :=
  match h.pendrive with
  | some drive => return drive
  | none => throw (.missingDevice "pendrive")

/-- Copies the start of a block to an address. Answers how many bytes it was. -/
def pendriveRead : External :=
  ofWords 30 "pendrive_read" 12 4 fun args => do
    Call.requireLength (args 2) Pendrive.blockSize
    let drive ← pendriveOf (← Call.host)
    let block ← Call.ofExcept (drive.block (args 0))
    Call.write (args 1) (block.take (args 2).toNat)
    return [args 2]

/-- Copies bytes from an address to the start of a block. -/
def pendriveWrite : External :=
  ofWords 31 "pendrive_write" 12 0 fun args => do
    Call.requireLength (args 2) Pendrive.blockSize
    let h ← Call.host
    let drive ← pendriveOf h
    let data ← Call.read (args 1) (args 2)
    let drive ← Call.ofExcept (drive.write (args 0) data)
    Call.setHost { h with pendrive := some drive }
    return []

/-- The pendrive functions. -/
def storage : List External :=
  [pendriveRead, pendriveWrite]

end RobotArena.External
