import RobotArena.Memory.Basic
import RobotArena.Memory.Layout

/-!
# Console registers

Printed bytes, delivered lines and the text that a trap leaves. A program can write any of these
registers itself, so a stored length counts only up to the capacity of its buffer.
-/

namespace RobotArena.Memory

/-- How many printed bytes are kept. -/
def stdoutUsed (m : Memory) : Nat :=
  min (m.wordAt Layout.stdoutLength).toNat Layout.stdoutCapacity

/-- The printed bytes that are kept. -/
def stdout (m : Memory) : List UInt8 :=
  m.bytesAt Layout.stdout m.stdoutUsed

/-- Drops the oldest printed bytes and moves the others to the start of the buffer. The count stays as
it is. -/
def shiftStdout (m : Memory) (dropped : Nat) : Memory :=
  m.setBytes Layout.stdout (m.bytesAt (Layout.stdout + dropped) (m.stdoutUsed - dropped))

/-- Prints bytes behind those that are kept. Where there is no room for all of them, the oldest are
shifted out. -/
def appendStdout (m : Memory) (data : List UInt8) : Memory :=
  if Layout.stdoutCapacity ≤ data.length then
    (m.setBytes Layout.stdout (data.drop (data.length - Layout.stdoutCapacity))).setWord
      Layout.stdoutLength (UInt32.ofNat Layout.stdoutCapacity)
  else
    let overflow := m.stdoutUsed + data.length - Layout.stdoutCapacity
    let start := m.stdoutUsed - overflow
    let shifted := if 0 < overflow then m.shiftStdout overflow else m
    (shifted.setBytes (Layout.stdout + start) data).setWord Layout.stdoutLength
      (UInt32.ofNat (start + data.length))

/-- Asks for a line. -/
def requestStdin (m : Memory) : Memory :=
  m.setByte Layout.stdinRequest 1

/-- Whether a line is asked for. -/
def stdinRequested (m : Memory) : Bool :=
  m.byte Layout.stdinRequest != 0

/-- Delivers as much of a line as there is room for, which ends the request. -/
def deliverStdin (m : Memory) (line : List UInt8) : Memory :=
  let kept := line.take Layout.stdinCapacity
  ((m.setBytes Layout.stdinData kept).setWord Layout.stdinLength
    (UInt32.ofNat kept.length)).setByte Layout.stdinRequest 0

/-- The delivered line; empty if there is none. -/
def stdinLine (m : Memory) : List UInt8 :=
  m.bytesAt Layout.stdinData (min (m.wordAt Layout.stdinLength).toNat Layout.stdinCapacity)

/-- Takes the delivered line away. -/
def clearStdin (m : Memory) : Memory :=
  m.setWord Layout.stdinLength 0

/-- Leaves the text of a trap, cut to the room for it. -/
def setCrashMessage (m : Memory) (message : String) : Memory :=
  let kept := (Text.toBytes message).take (Layout.crashMessageCapacity - 1)
  m.setBytes Layout.crashMessage (kept ++ [0])

end RobotArena.Memory
