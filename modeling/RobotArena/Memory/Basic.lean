import RobotArena.Word
import RobotArena.Text.Utf8
import RobotArena.Text.Hex
import RobotArena.Binary32.Basic

/-!
# The memory of a robot

A memory is a block of `Memory.size` bytes. `byte` is its view: what an operation does is said by
the bytes seen afterwards. Accesses at addresses that a program chooses are checked and answer a
`Fault`; accesses at the addresses of the layout use the total functions `bytesAt` and `setBytes`,
under which bytes outside the block read as zero and are never written.
-/

namespace RobotArena

/-- The bytes of a robot's memory. -/
structure Memory where
  bytes : Vector UInt8 16384
  deriving DecidableEq

namespace Memory

/-- The number of bytes. -/
def size : Nat := 16384

/-- An access outside the memory. -/
structure Fault where
  address : UInt32
  length : UInt32
  deriving DecidableEq, Repr

/-- The words for the fault. -/
def Fault.message (f : Fault) : String :=
  s!"memory access out of bounds: address 0x{Text.hexNat 4 f.address.toNat}, length {f.length}"

/-- The memory that holds only zeros. -/
def zero : Memory := ⟨Vector.replicate 16384 0⟩

instance : Inhabited Memory := ⟨zero⟩

/-! ### Total accesses -/

/-- The byte at an address; zero outside. -/
def byte (m : Memory) (address : Nat) : UInt8 :=
  if h : address < 16384 then m.bytes[address] else 0

/-- Replaces the byte at an address; nothing changes outside. -/
def setByte (m : Memory) (address : Nat) (b : UInt8) : Memory :=
  ⟨m.bytes.setIfInBounds address b⟩

/-- Some bytes from an address on. -/
def bytesAt (m : Memory) (address : Nat) : Nat → List UInt8
  | 0 => []
  | n + 1 => m.byte address :: m.bytesAt (address + 1) n

/-- Replaces the bytes from an address on. -/
def setBytes (m : Memory) (address : Nat) : List UInt8 → Memory
  | [] => m
  | b :: bs => (m.setByte address b).setBytes (address + 1) bs

/-- The word at an address. -/
def wordAt (m : Memory) (address : Nat) : UInt32 :=
  Word.ofBytes (m.byte address) (m.byte (address + 1)) (m.byte (address + 2))
    (m.byte (address + 3))

/-- Replaces the word at an address. -/
def setWord (m : Memory) (address : Nat) (w : UInt32) : Memory :=
  m.setBytes address (Word.toBytes w)

/-- The number at an address. -/
def numberAt (m : Memory) (address : Nat) : Binary32 :=
  ⟨m.wordAt address⟩

/-- Replaces the number at an address. -/
def setNumber (m : Memory) (address : Nat) (x : Binary32) : Memory :=
  m.setWord address x.bits

/-- Replaces every byte below an address by zero. -/
def clearBelow (m : Memory) (limit : Nat) : Memory :=
  ⟨Vector.ofFn fun i => if i.val < limit then 0 else m.bytes[i]⟩

/-! ### Checked accesses -/

/-- Whether all bytes of an access lie in the memory. -/
abbrev InRange (address length : UInt32) : Prop :=
  address.toNat + length.toNat ≤ size

/-- Some bytes from an address on, if all of them lie in the memory. -/
def read (m : Memory) (address length : UInt32) : Except Fault (List UInt8) :=
  if InRange address length then .ok (m.bytesAt address.toNat length.toNat)
  else .error ⟨address, length⟩

/-- Replaces bytes from an address on, if all of them lie in the memory. -/
def write (m : Memory) (address : UInt32) (data : List UInt8) : Except Fault Memory :=
  let length := UInt32.ofNat data.length
  if InRange address length ∧ data.length ≤ size then .ok (m.setBytes address.toNat data)
  else .error ⟨address, length⟩

/-- Replaces each of some bytes from an address on by the same byte. -/
def fill (m : Memory) (address length : UInt32) (b : UInt8) : Except Fault Memory :=
  if InRange address length then
    .ok (m.setBytes address.toNat (List.replicate length.toNat b))
  else .error ⟨address, length⟩

/-- The byte at an address, if it lies in the memory. -/
def readByte (m : Memory) (address : UInt32) : Except Fault UInt8 :=
  if InRange address 1 then .ok (m.byte address.toNat) else .error ⟨address, 1⟩

/-- The word at an address, if it lies in the memory. -/
def readWord (m : Memory) (address : UInt32) : Except Fault UInt32 :=
  if InRange address 4 then .ok (m.wordAt address.toNat) else .error ⟨address, 4⟩

/-- Reads text up to a byte of zero, up to `limit` bytes or up to the end of the memory, whichever
comes first. An address beyond the end is a fault. -/
def readText (m : Memory) (address limit : UInt32) : Except Fault String := do
  let available := min (size - address.toNat) limit.toNat
  let bytes ← m.read address (UInt32.ofNat available)
  return Text.ofBytesLossy (bytes.takeWhile (· != 0))

theorem length_bytesAt (m : Memory) (address n : Nat) : (m.bytesAt address n).length = n := by
  induction n generalizing address with
  | zero => rfl
  | succ n ih => rw [bytesAt, List.length_cons, ih]

/-! ### What each operation does to the bytes -/

theorem byte_setByte (m : Memory) (address i : Nat) (b : UInt8) :
    (m.setByte address b).byte i = if i = address ∧ i < size then b else m.byte i := by
  unfold byte setByte size
  by_cases h : i < 16384
  · simp only [h, dite_true, Vector.getElem_setIfInBounds, and_true]
    by_cases e : i = address
    · simp [e]
    · simp [e, Ne.symm e]
  · simp [h]

theorem byte_setBytes (m : Memory) (address i : Nat) (bs : List UInt8) :
    (m.setBytes address bs).byte i =
      if address ≤ i ∧ i < size then (bs[i - address]?).getD (m.byte i) else m.byte i := by
  induction bs generalizing m address with
  | nil => simp [setBytes]
  | cons b bs ih =>
    rw [setBytes, ih, byte_setByte]
    by_cases hs : i < size
    · by_cases e : i = address
      · subst e
        have : ¬ i + 1 ≤ i := by omega
        simp [hs, this]
      · by_cases hle : address ≤ i
        · have h1 : address + 1 ≤ i := by omega
          obtain ⟨k, rfl⟩ : ∃ k, i = address + 1 + k := ⟨i - (address + 1), by omega⟩
          have h2 : address + 1 + k - address = k + 1 := by omega
          have h3 : address + 1 + k - (address + 1) = k := by omega
          have h4 : address + 1 + k ≠ address := by omega
          simp [hs, h1, hle, h2, h3, h4]
        · have h1 : ¬ address + 1 ≤ i := by omega
          simp [hle, h1, e]
    · simp [hs]

theorem byte_clearBelow (m : Memory) (limit i : Nat) :
    (m.clearBelow limit).byte i = if i < limit then 0 else m.byte i := by
  unfold byte clearBelow
  by_cases h : i < 16384
  · simp [h]
  · simp [h]

end Memory

end RobotArena
