/-!
# The random stream

Random bytes come from the ChaCha stream cipher with twelve rounds. A seed of
64 bits is spread over the 256-bit key by a linear congruential generator with
permuted output; the nonce is zero. The key then fixes an endless stream of
32-bit words: word `j` is word `j % 16` of block `j / 16`, so a stream in use
is its key and the number of words taken.
-/

namespace ChipEight

/-- A key of eight words. -/
abbrev StreamKey := Vector UInt32 8

namespace StreamKey

/-- One step of the generator that spreads a seed over the key. -/
def nextSeed (s : UInt64) : UInt64 :=
  s * 6364136223846793005 + 11634580027462260723

/-- Rotate a word right. -/
def rotateRight (a n : UInt32) : UInt32 :=
  (a >>> n) ||| (a <<< ((32 - n) % 32))

/-- The key word that the generator puts out in a state. -/
def output (s : UInt64) : UInt32 :=
  rotateRight (((s >>> 18) ^^^ s) >>> 27).toUInt32 (s >>> 59).toUInt32

/-- The state of the generator after `n` steps from a seed. -/
def seedAfter (seed : UInt64) : Nat → UInt64
  | 0 => seed
  | n + 1 => nextSeed (seedAfter seed n)

/-- The key of a seed: what the generator puts out in its next eight states. -/
def ofSeed (seed : UInt64) : StreamKey :=
  Vector.ofFn fun k => output (seedAfter seed (k.val + 1))

end StreamKey

/-- The sixteen words of a cipher state. -/
abbrev StreamBlock := Vector UInt32 16

namespace StreamBlock

/-- Rotate a word left. -/
def rotateLeft (a n : UInt32) : UInt32 :=
  (a <<< n) ||| (a >>> (32 - n))

/-- Mix the words at four places. -/
def quarterRound (b : StreamBlock) (i j k l : Fin 16) : StreamBlock :=
  let x := b[i]
  let y := b[j]
  let z := b[k]
  let w := b[l]
  let x := x + y
  let w := rotateLeft (w ^^^ x) 16
  let z := z + w
  let y := rotateLeft (y ^^^ z) 12
  let x := x + y
  let w := rotateLeft (w ^^^ x) 8
  let z := z + w
  let y := rotateLeft (y ^^^ z) 7
  (((b.set i x).set j y).set k z).set l w

/-- Mix the four columns, then the four diagonals. -/
def doubleRound (b : StreamBlock) : StreamBlock :=
  let b := quarterRound b 0 4 8 12
  let b := quarterRound b 1 5 9 13
  let b := quarterRound b 2 6 10 14
  let b := quarterRound b 3 7 11 15
  let b := quarterRound b 0 5 10 15
  let b := quarterRound b 1 6 11 12
  let b := quarterRound b 2 7 8 13
  quarterRound b 3 4 9 14

/-- The state before the rounds: constants, key, block counter, and a nonce of zero. -/
def initial (key : StreamKey) (counter : UInt64) : StreamBlock :=
  #v[0x61707865, 0x3320646e, 0x79622d32, 0x6b206574,
    key[0], key[1], key[2], key[3], key[4], key[5], key[6], key[7],
    counter.toUInt32, (counter >>> 32).toUInt32, 0, 0]

/-- The state after `n` double rounds. -/
def rounds (b : StreamBlock) : Nat → StreamBlock
  | 0 => b
  | n + 1 => rounds (doubleRound b) n

/-- A block of the stream: six double rounds, added to the state before them. -/
def generate (key : StreamKey) (counter : UInt64) : StreamBlock :=
  let b := initial key counter
  Vector.zipWith (· + ·) (rounds b 6) b

end StreamBlock

/-- A stream in use. -/
structure KeyStream where
  /-- The key that fixes the stream. -/
  key : StreamKey
  /-- How many words were taken. -/
  position : Nat
deriving DecidableEq

namespace KeyStream

/-- The stream of a seed, from its start. -/
def ofSeed (seed : UInt64) : KeyStream :=
  ⟨.ofSeed seed, 0⟩

/-- Word `j` of the stream of a key. -/
def word (key : StreamKey) (j : Nat) : UInt32 :=
  (StreamBlock.generate key (UInt64.ofNat (j / 16)))[Fin.ofNat 16 j]

/-- The random byte that is drawn next: the low byte of the next word. -/
def peek (s : KeyStream) : UInt8 :=
  (word s.key s.position).toUInt8

/-- The stream with one more word taken. -/
def advance (s : KeyStream) : KeyStream :=
  { s with position := s.position + 1 }

end KeyStream

end ChipEight
