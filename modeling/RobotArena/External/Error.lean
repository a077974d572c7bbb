import RobotArena.Memory.Basic

/-!
# Rejected calls
-/

namespace RobotArena

/-- Why an external call is rejected. -/
inductive CallError where
  | badPointer (fault : Memory.Fault)
  | oversized (length limit : UInt32)
  | missingDevice (device : String)
  | noContext
  | queueFull
  | notOwner (id : UInt32)
  | unknownElement (id : UInt32)
  | invalidArgument (what : String)
  deriving DecidableEq, Repr

/-- The words for the rejection. -/
def CallError.message : CallError → String
  | .badPointer fault => s!"bad pointer: {fault.message}"
  | .oversized length limit => s!"length {length} exceeds limit {limit}"
  | .missingDevice device => s!"entity has no {device}"
  | .noContext => "called without an entity context"
  | .queueFull => "queue is full"
  | .notOwner id => s!"gui element {id} belongs to another team"
  | .unknownElement id => s!"unknown gui element {id}"
  | .invalidArgument what => s!"invalid argument: {what}"

end RobotArena
