import RobotArena.Mixing

/-!
# Pseudorandom words

The word that programs get for a seed: the first word of the ChaCha key stream with eight rounds,
under a key that is stretched from the seed by a linear congruential generator with permuted
output.
-/

namespace RobotArena.Pseudorandom

/-- The next state of the congruential generator. -/
def advance (state : UInt64) : UInt64 :=
  state * 6364136223846793005 + 11634580027462260723

/-- The word that a state of the congruential generator stands for. -/
def permuted (state : UInt64) : UInt32 :=
  Mixing.rotateRight (((state >>> 18) ^^^ state) >>> 27).toUInt32 (state >>> 59).toUInt32

/-- Words from the states that follow a state. -/
def stretch : Nat → UInt64 → List UInt32
  | 0, _ => []
  | n + 1, state => permuted (advance state) :: stretch n (advance state)

/-- The block before mixing: four constants, the key, and a counter and a stream number of
zero. -/
def start (key : List UInt32) : Mixing.Block :=
  let constants : List UInt32 := [0x61707865, 0x3320646E, 0x79622D32, 0x6B206574]
  Vector.ofFn fun i => (constants ++ key)[i.val]?.getD 0

/-- The round on columns and the round on diagonals. -/
def doubleRound (s : Mixing.Block) : Mixing.Block :=
  Mixing.round Mixing.rotateLeft Mixing.zero s

/-- The word for a seed. -/
def word (seed : UInt32) : UInt32 :=
  let s := start (stretch 8 seed.toUInt64)
  let mixed := doubleRound (doubleRound (doubleRound (doubleRound s)))
  Mixing.first mixed + Mixing.first s

end RobotArena.Pseudorandom
