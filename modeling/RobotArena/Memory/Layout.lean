/-!
# The layout of memory

The heap starts at address zero, the stack grows down from `stackTop` to `stackBase`, and the
last kilobyte holds the registers through which a program and the arena's devices speak to each
other. The registers below `deviceBase` belong to the program and are cleared when a program is
loaded; those from `deviceBase` on belong to the devices. From `attachmentBase` on they belong to
the attachment that the robot carries, so the registers of different attachments overlap.
-/

namespace RobotArena.Layout

/-- The start of the heap. -/
def heapBase : Nat := 0

/-- The end of the heap, and the lowest address of the stack. -/
def stackBase : Nat := 8192

/-- The end of the stack, and the start of the registers. -/
def stackTop : Nat := 15360

/-! ### Console -/

/-- The newest printed bytes. -/
def stdout : Nat := 15360

/-- How many printed bytes can be kept. -/
def stdoutCapacity : Nat := 256

/-- A word: how many printed bytes are kept. -/
def stdoutLength : Nat := 15616

/-- A byte: not zero while the program waits for a line. -/
def stdinRequest : Nat := 15620

/-- A word: the length of the delivered line. -/
def stdinLength : Nat := 15624

/-- The bytes of the delivered line. -/
def stdinData : Nat := 15628

/-- How many bytes of a line can be delivered. -/
def stdinCapacity : Nat := 64

/-- The text left by a trap, ended by a byte of zero. -/
def crashMessage : Nat := 15696

/-- How many bytes the text left by a trap can take, the last one included. -/
def crashMessageCapacity : Nat := 128

/-! ### Navigation, drive and radar -/

/-- The first register that belongs to a device. -/
def deviceBase : Nat := 15840

/-- A number: the first coordinate of the robot. -/
def navX : Nat := 15840

/-- A number: the second coordinate of the robot. -/
def navY : Nat := 15844

/-- A number: the robot's heading. -/
def navHeading : Nat := 15848

/-- A number: the wanted speed, from -1 to 1. -/
def driveThrottle : Nat := 15852

/-- A number: the wanted heading. -/
def driveTargetHeading : Nat := 15856

/-- A byte: the state of the radar. -/
def radarRequest : Nat := 15860

/-- A number: the wanted range. -/
def radarRange : Nat := 15864

/-- A word: how many contacts the radar found. -/
def radarCount : Nat := 15868

/-- The contacts, each with two coordinates and a class. -/
def radarResults : Nat := 15872

/-- How many contacts there is room for. -/
def radarSlots : Nat := 8

/-- The number of bytes of a contact. -/
def radarSlotSize : Nat := 12

/-! ### Attachments -/

/-- The first register that belongs to the attachment. -/
def attachmentBase : Nat := 16000

/-- A number: the wanted angle of the turret. -/
def turretTargetAngle : Nat := 16000

/-- A byte: not zero to ask for a shot. -/
def turretShoot : Nat := 16004

/-- A number: the angle of the turret. -/
def turretAngle : Nat := 16008

/-- A word: ticks until the turret can fire. -/
def turretCooldown : Nat := 16012

/-- A byte: not zero to ask for an extraction. -/
def extractorRequest : Nat := 16000

/-- A byte: how the last extraction ended. -/
def extractorStatus : Nat := 16004

/-- A word: the stored units. -/
def extractorStored : Nat := 16008

/-- A word: how many units there is room for. -/
def extractorCapacity : Nat := 16012

/-- A byte: the transfer asked for. -/
def transporterCommand : Nat := 16000

/-- A byte: how the last transfer ended. -/
def transporterStatus : Nat := 16004

/-- A word: the units on board. -/
def transporterAmount : Nat := 16008

/-- A word: the entity on the other side of the last transfer, or zero. -/
def transporterPartner : Nat := 16012

/-- A byte: the operation asked for. -/
def facilityOp : Nat := 16000

/-- A byte: how the last operation ended. -/
def facilityStatus : Nat := 16004

/-- A word: how many technologies are queued. -/
def facilityQueueLength : Nat := 16008

/-- The hash of a technology. -/
def facilityHash : Nat := 16016

/-- The number of bytes of a hash. -/
def hashSize : Nat := 32

/-- The names under which assembly programs know the addresses. -/
def names : List (String × Nat) :=
  [("HEAP_BASE", heapBase), ("STACK_TOP", stackTop), ("STDOUT", stdout),
    ("STDOUT_LEN", stdoutLength), ("STDIN_REQUEST", stdinRequest), ("STDIN_LEN", stdinLength),
    ("STDIN_DATA", stdinData), ("CRASH_MESSAGE", crashMessage), ("NAV_X", navX),
    ("NAV_Y", navY), ("NAV_HEADING", navHeading), ("DRIVE_THROTTLE", driveThrottle),
    ("DRIVE_TARGET_HEADING", driveTargetHeading), ("RADAR_REQUEST", radarRequest),
    ("RADAR_RANGE", radarRange), ("RADAR_COUNT", radarCount), ("RADAR_RESULTS", radarResults),
    ("TURRET_TARGET_ANGLE", turretTargetAngle), ("TURRET_SHOOT", turretShoot),
    ("TURRET_ANGLE", turretAngle), ("TURRET_COOLDOWN", turretCooldown),
    ("EXTRACTOR_REQUEST", extractorRequest), ("EXTRACTOR_STATUS", extractorStatus),
    ("EXTRACTOR_STORED", extractorStored), ("EXTRACTOR_CAPACITY", extractorCapacity),
    ("TRANSPORTER_COMMAND", transporterCommand), ("TRANSPORTER_STATUS", transporterStatus),
    ("TRANSPORTER_AMOUNT", transporterAmount), ("TRANSPORTER_PARTNER", transporterPartner),
    ("FACILITY_OP", facilityOp), ("FACILITY_STATUS", facilityStatus),
    ("FACILITY_QUEUE_LEN", facilityQueueLength), ("FACILITY_HASH", facilityHash)]

end RobotArena.Layout
