/-!
# Mixing words

Sixteen words, seen as four rows of four, are mixed column by column and then diagonal by
diagonal. What a mix is used for decides which way words are rotated and which words are added
on the way.
-/

namespace RobotArena.Mixing

/-- Rotates a word to the left by less than 32 places. -/
def rotateLeft (w n : UInt32) : UInt32 :=
  (w <<< n) ||| (w >>> ((32 - n) % 32))

/-- Rotates a word to the right by less than 32 places. -/
def rotateRight (w n : UInt32) : UInt32 :=
  (w >>> n) ||| (w <<< ((32 - n) % 32))

/-- The sixteen words that are mixed. -/
abbrev Block := Vector UInt32 16

/-- The block of zeros. -/
def zero : Block :=
  Vector.replicate 16 0

/-- The first word of a block. -/
def first (s : Block) : UInt32 :=
  s[0]

/-- The word at a place; zero outside. -/
def wordAt (s : Block) (place : Nat) : UInt32 :=
  if h : place < 16 then s[place] else 0

/-- Mixes four words of a block, and two words `x` and `y` into them. -/
def quarter (rotate : UInt32 → UInt32 → UInt32) (s : Block) (a b c d : Fin 16) (x y : UInt32) :
    Block :=
  let va := s.get a + s.get b + x
  let vd := rotate (s.get d ^^^ va) 16
  let vc := s.get c + vd
  let vb := rotate (s.get b ^^^ vc) 12
  let va := va + vb + y
  let vd := rotate (vd ^^^ va) 8
  let vc := vc + vd
  let vb := rotate (vb ^^^ vc) 7
  (((s.set a va a.isLt).set b vb b.isLt).set c vc c.isLt).set d vd d.isLt

/-- Mixes the columns and then the diagonals of a block, and the words of `m` into them. -/
def round (rotate : UInt32 → UInt32 → UInt32) (m s : Block) : Block :=
  let s := quarter rotate s 0 4 8 12 m[0] m[1]
  let s := quarter rotate s 1 5 9 13 m[2] m[3]
  let s := quarter rotate s 2 6 10 14 m[4] m[5]
  let s := quarter rotate s 3 7 11 15 m[6] m[7]
  let s := quarter rotate s 0 5 10 15 m[8] m[9]
  let s := quarter rotate s 1 6 11 12 m[10] m[11]
  let s := quarter rotate s 2 7 8 13 m[12] m[13]
  quarter rotate s 3 4 9 14 m[14] m[15]

end RobotArena.Mixing
