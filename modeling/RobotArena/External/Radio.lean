import RobotArena.External.Call

/-!
# Radio functions

Sending puts a transmission on the robot's outbound queue, from which the arena delivers it;
receiving takes one from the inbound queue.
-/

namespace RobotArena.External

/-- Sends the bytes at an address. -/
def send (address length : UInt32) (beam : Option Beam) : Call Unit := do
  Call.require (length != 0) (.invalidArgument "empty transmission")
  Call.requireLength length Transmission.maxPayload
  let h ← Call.host
  let payload ← Call.read address length
  let queues := (← get).queues
  match queues.outbound.push? ⟨h.entity, h.team, h.pose.position, payload, beam⟩ with
  | some outbound => modify fun c => { c with queues := { queues with outbound } }
  | none => throw .queueFull

/-- Sends in all directions. -/
def transmit : External :=
  ofWords 18 "transmit" 8 0 fun args => do
    send (args 0) (args 1) none
    return []

/-- Whether an angle and a width make a beam. -/
def isBeam (angle spread : Binary32) : Bool :=
  angle.isFinite && spread.isFinite && Binary32.lt 0 spread

/-- Sends in a direction, which is given relative to the robot's heading. -/
def transmitBeam : External :=
  ofWords 19 "transmit_beam" 16 0 fun args => do
    let angle := args.number 2
    let spread := args.number 3
    Call.require (isBeam angle spread) (.invalidArgument "beam angle")
    let h ← Call.host
    send (args 0) (args 1)
      (some ⟨Angle.normalize (h.pose.heading + angle), spread.lesser 360⟩)
    return []

/-- Takes the oldest message if there is room for it at an address, and answers its length; zero
if there is none. A message that is too long stays. -/
def receive : External :=
  ofWords 20 "receive" 8 4 fun args => do
    let _ ← Call.host
    match (← get).queues.inbound.front? with
    | none => return [0]
    | some message =>
      let length := UInt32.ofNat message.payload.length
      Call.requireLength length (args 1)
      Call.write (args 0) message.payload
      modify fun c => { c with queues := { c.queues with inbound := c.queues.inbound.pop } }
      return [length]

/-- The radio functions. -/
def radio : List External :=
  [transmit, transmitBeam, receive]

end RobotArena.External
