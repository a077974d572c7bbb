import RobotArena.Mixing
import RobotArena.Word

/-!
# The hash function BLAKE3

A message is cut into chunks of 1024 bytes and a chunk into blocks of 64. Each block is mixed into
a chaining value, and the chaining values of the chunks are joined in a binary tree whose left
part holds the greatest power of two of chunks that leaves some for the right part. The hash is
the mix of the last step with the root flag set.
-/

namespace RobotArena.Blake3

open Mixing

/-- The first four of the words from which chaining starts. -/
def initialUpper : Vector UInt32 4 :=
  #v[0x6A09E667, 0xBB67AE85, 0x3C6EF372, 0xA54FF53A]

/-- The other four of the words from which chaining starts. -/
def initialLower : Vector UInt32 4 :=
  #v[0x510E527F, 0x9B05688C, 0x1F83D9AB, 0x5BE0CD19]

/-- The eight words from which chaining starts. -/
def initial : Vector UInt32 8 :=
  initialUpper ++ initialLower

/-- The order in which a round passes the words of a block on to the next round. -/
def order : List Nat :=
  [2, 6, 3, 10, 7, 0, 4, 13, 1, 11, 12, 5, 9, 14, 15, 8]

/-- Marks the first block of a chunk. -/
def chunkStart : UInt32 := 1

/-- Marks the last block of a chunk. -/
def chunkEnd : UInt32 := 2

/-- Marks the block that joins two chaining values. -/
def parent : UInt32 := 4

/-- Marks the last step of all. -/
def root : UInt32 := 8

/-- The words of a block in the order of the next round. -/
def reordered (m : Block) : Block :=
  Vector.ofFn fun i => wordAt m (order.getD i 0)

/-- Several rounds, each on the words of the block in another order. -/
def rounds : Nat → Block → Block → Block
  | 0, _, s => s
  | n + 1, m, s => rounds n (reordered m) (round rotateRight m s)

/-- A step that is ready to be mixed. -/
structure Step where
  chaining : Vector UInt32 8
  block : Block
  counter : UInt64
  length : UInt32
  flags : UInt32

/-- The eight words that a step results in. -/
def Step.mix (t : Step) : Vector UInt32 8 :=
  let position : Vector UInt32 4 :=
    #v[t.counter.toUInt32, (t.counter >>> 32).toUInt32, t.length, t.flags]
  let start : Block := t.chaining ++ (initialUpper ++ position)
  let s := rounds 7 t.block start
  Vector.ofFn fun (i : Fin 8) => s[i.val] ^^^ s[i.val + 8]

/-- The words of a block, with words of zero where the bytes end. -/
def blockWords (bytes : List UInt8) : Block :=
  let padded := bytes ++ List.replicate 3 0
  Vector.ofFn fun (i : Fin 16) => Word.ofBlock padded i

/-- The number of bytes of a block. -/
def blockSize : Nat := 64

/-- The number of bytes of a chunk. -/
def chunkSize : Nat := 1024

/-- The last step of a chunk, from the chaining value before the given bytes on. -/
def chunkStep (counter : UInt64) (chaining : Vector UInt32 8) (flags : UInt32)
    (bytes : List UInt8) : Step :=
  if bytes.length ≤ blockSize then
    ⟨chaining, blockWords bytes, counter, UInt32.ofNat bytes.length, flags ||| chunkEnd⟩
  else
    let step : Step := ⟨chaining, blockWords (bytes.take blockSize), counter, 64, flags⟩
    chunkStep counter step.mix 0 (bytes.drop blockSize)
termination_by bytes.length
decreasing_by
  simp only [List.length_drop, blockSize] at *
  omega

/-- How many bytes go to the left part of the tree. -/
def leftSize (length : Nat) : Nat :=
  chunkSize <<< ((length - 1) / chunkSize).log2

theorem leftSize_lt {n : Nat} (h : chunkSize < n) : leftSize n < n := by
  rw [leftSize, Nat.shiftLeft_eq]
  have h1 : (n - 1) / chunkSize ≠ 0 := by
    simp only [chunkSize] at *
    omega
  have h2 : 2 ^ ((n - 1) / chunkSize).log2 ≤ (n - 1) / chunkSize := Nat.log2_self_le h1
  have h3 : chunkSize * 2 ^ ((n - 1) / chunkSize).log2 ≤ chunkSize * ((n - 1) / chunkSize) :=
    Nat.mul_le_mul_left _ h2
  have h4 : chunkSize * ((n - 1) / chunkSize) ≤ n - 1 := Nat.mul_div_le _ _
  omega

theorem leftSize_pos (n : Nat) : 0 < leftSize n := by
  rw [leftSize, Nat.shiftLeft_eq]
  exact Nat.mul_pos (by decide) (Nat.two_pow_pos _)

/-- The last step for some bytes of the message, the first of them in chunk number `counter`. -/
def treeStep (counter : UInt64) (bytes : List UInt8) : Step :=
  if bytes.length ≤ chunkSize then chunkStep counter initial chunkStart bytes
  else
    let size := leftSize bytes.length
    let left := (treeStep counter (bytes.take size)).mix
    let right := (treeStep (counter + UInt64.ofNat (size / chunkSize)) (bytes.drop size)).mix
    ⟨initial, left ++ right, 0, 64, parent⟩
termination_by bytes.length
decreasing_by
  · have := leftSize_lt (n := bytes.length) (by omega)
    simp only [List.length_take]
    omega
  · have := leftSize_pos bytes.length
    simp only [List.length_drop] at *
    omega

/-- The 32 bytes of the hash. -/
def hash (message : List UInt8) : List UInt8 :=
  let last := treeStep 0 message
  ({ last with flags := last.flags ||| root } : Step).mix.toList.flatMap Word.toBytes

theorem length_hash (message : List UInt8) : (hash message).length = 32 := by
  unfold hash
  simp only [List.length_flatMap, Word.length_toBytes, List.map_const', Vector.length_toList,
    List.sum_replicate_nat]

end RobotArena.Blake3
