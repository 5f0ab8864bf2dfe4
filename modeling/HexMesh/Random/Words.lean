/-!
Reproducible random words.

A seed is stretched to a 256-bit key, and the words are the key stream of a
block cipher in counter mode: block after block, two 32-bit words at a time.  A
stream is a function of the position, so that drawing words changes nothing.
-/

namespace HexMesh

/-- An endless stream of 64-bit words. -/
abbrev WordStream := Nat → UInt64

namespace Random

/-- The key of the cipher, in little-endian words. -/
abbrev CipherKey := Vector UInt32 8

/-! ## Stretching a seed -/

/-- One step of a linear congruential generator modulo `2 ^ 64`. -/
def advance (s : UInt64) : UInt64 := s * 6364136223846793005 + 11634580027462260723

/-- The output of a state: a word of its high bits, rotated by the highest ones. -/
def permute (s : UInt64) : UInt32 :=
  let mixed := (((s >>> 18) ^^^ s) >>> 27).toUInt32
  let turn := (s >>> 59).toUInt32
  (mixed >>> turn) ||| (mixed <<< (32 - turn))

/-- The generator's state after a number of steps from the seed. -/
def stateAfter (seed : UInt64) : Nat → UInt64
  | 0 => seed
  | n + 1 => advance (stateAfter seed n)

/-- The key of a seed: the outputs of the first eight states after it. -/
def cipherKey (seed : UInt64) : CipherKey :=
  Vector.ofFn fun i => permute (stateAfter seed (i.val + 1))

/-! ## The cipher -/

/-- The sixteen words that a block is computed from. -/
abbrev Block := Vector UInt32 16

def rotateLeft (x k : UInt32) : UInt32 := (x <<< k) ||| (x >>> (32 - k))

/-- Add one word to another and mix the sum into a third by a rotation. -/
def mix (s : Block) (a b c : Fin 16) (k : UInt32) : Block :=
  let s := s.set a.val (s.get a + s.get b) a.isLt
  s.set c.val (rotateLeft (s.get c ^^^ s.get a) k) c.isLt

/-- The quarter round on four words of a block. -/
def quarterRound (s : Block) (a b c d : Fin 16) : Block :=
  mix (mix (mix (mix s a b d 16) c d b 12) a b d 8) c d b 7

/-- A round on the columns followed by one on the diagonals. -/
def doubleRound (s : Block) : Block :=
  let s := quarterRound s 0 4 8 12
  let s := quarterRound s 1 5 9 13
  let s := quarterRound s 2 6 10 14
  let s := quarterRound s 3 7 11 15
  let s := quarterRound s 0 5 10 15
  let s := quarterRound s 1 6 11 12
  let s := quarterRound s 2 7 8 13
  quarterRound s 3 4 9 14

def doubleRounds (s : Block) : Nat → Block
  | 0 => s
  | n + 1 => doubleRounds (doubleRound s) n

/-- The input of a block: four constants, the key, the block's number and a zero nonce. -/
def blockInput (key : CipherKey) (number : Nat) : Block :=
  let constants : Vector UInt32 4 := #v[0x61707865, 0x3320646e, 0x79622d32, 0x6b206574]
  let counter : Vector UInt32 4 := #v[number.toUInt32, (number / 4294967296).toUInt32, 0, 0]
  constants ++ key ++ counter

/-- A block of the key stream: twelve rounds, added to the input. -/
def block (key : CipherKey) (number : Nat) : Block :=
  let input := blockInput key number
  Vector.zipWith (· + ·) (doubleRounds input 6) input

/-- The key stream as 64-bit words, the low half of each first. -/
def keyStream (key : CipherKey) : WordStream := fun i =>
  let words := (block key (i / 8)).toArray
  let half (j : Nat) : UInt64 := (words.getD j 0).toUInt64
  half (2 * (i % 8)) ||| (half (2 * (i % 8) + 1) <<< 32)

/-- The words that a seed stands for. -/
def ofSeed (seed : UInt64) : WordStream := keyStream (cipherKey seed)

end Random
end HexMesh
