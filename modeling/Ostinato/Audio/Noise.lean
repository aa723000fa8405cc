/-!
# Noise

Snares and hi-hats are made of noise: numbers evenly spread over `[-1, 1]`, one per sample, drawn from a stream of
64-bit words.  A seed determines the stream: it is stretched to a key, and the words are the keystream of ChaCha with
twelve rounds under that key, two 32-bit words at a time.

Both the stream and the numbers are those of the `rand` library, version 0.8: the stream is the one that its standard
generator documents for a seed of 64 bits, and the numbers are the ones that its uniform distribution draws from a
closed interval.  What is proved of renders holds for any stream of words.

* `Noise.ofSeed`: the stream of a seed.
* `Noise.ofWords`: a stream that repeats the given words.
* `Noise.draw`: the next number, and the stream after it.
-/

namespace Ostinato

/-! ### Keys -/

/-- One step of the generator that stretches a seed. -/
def stretch (state : UInt64) : UInt64 :=
  state * 6364136223846793005 + 11634580027462260723

/-- The word that the generator puts out in a state. -/
def stretchedWord (state : UInt64) : UInt32 :=
  let word := (((state >>> 18) ^^^ state) >>> 27).toUInt32
  let turn := (state >>> 59).toUInt32
  (word >>> turn) ||| (word <<< (32 - turn))

/-- As many words as asked for, from the states that follow the given one. -/
def stretchedWords : (count : Nat) → (state : UInt64) → List UInt32
  | 0, _ => []
  | count + 1, state => stretchedWord (stretch state) :: stretchedWords count (stretch state)

/-! ### Blocks -/

abbrev Block := Vector UInt32 16

/-- The words that every block starts with. -/
def blockConstants : List UInt32 :=
  [0x61707865, 0x3320646e, 0x79622d32, 0x6b206574]

/-- The block with the given number before its rounds: constants, key, number and stream zero. -/
def Block.initial (key : List UInt32) (number : UInt64) : Block :=
  let words := blockConstants ++ key ++ [number.toUInt32, (number >>> 32).toUInt32, 0, 0]
  Vector.ofFn fun i => words.getD i 0

def turnLeft (word : UInt32) (bits : UInt32) : UInt32 :=
  (word <<< bits) ||| (word >>> (32 - bits))

/-- Mixes four words of a block. -/
def Block.quarterRound (block : Block) (i j k l : Fin 16) : Block :=
  let a := block[i]
  let b := block[j]
  let c := block[k]
  let d := block[l]
  let a := a + b
  let d := turnLeft (d ^^^ a) 16
  let c := c + d
  let b := turnLeft (b ^^^ c) 12
  let a := a + b
  let d := turnLeft (d ^^^ a) 8
  let c := c + d
  let b := turnLeft (b ^^^ c) 7
  (((block.set i a).set j b).set k c).set l d

/-- A round on the columns of a block and one on its diagonals. -/
def Block.doubleRound (block : Block) : Block :=
  let block := block.quarterRound 0 4 8 12
  let block := block.quarterRound 1 5 9 13
  let block := block.quarterRound 2 6 10 14
  let block := block.quarterRound 3 7 11 15
  let block := block.quarterRound 0 5 10 15
  let block := block.quarterRound 1 6 11 12
  let block := block.quarterRound 2 7 8 13
  block.quarterRound 3 4 9 14

def Block.doubleRounds : Nat → Block → Block
  | 0, block => block
  | count + 1, block => doubleRounds count block.doubleRound

/-- The keystream block with the given number, from twelve rounds. -/
def Block.keystream (key : List UInt32) (number : UInt64) : Block :=
  let initial := Block.initial key number
  (initial.doubleRounds 6).zipWith (· + ·) initial

/-- The keystream word of 64 bits with the given number: eight of them make a block, low halves come first. -/
def keystreamWord (key : List UInt32) (n : Nat) : UInt64 :=
  let block := Block.keystream key (UInt64.ofNat (n / 8))
  let low := block[2 * (n % 8)]
  let high := block[2 * (n % 8) + 1]
  low.toUInt64 ||| (high.toUInt64 <<< 32)

/-! ### Streams -/

/-- A stream of words and the number of words that were drawn from it. -/
structure Noise where
  word : Nat → UInt64
  drawn : Nat := 0

namespace Noise

/-- The stream of a seed, as the standard generator of the library gives it: the seed is stretched by a permuted
congruential generator, as its default is, and the key that results is used with stream zero from block zero on. -/
def ofSeed (seed : UInt64) : Noise :=
  { word := keystreamWord (stretchedWords 8 seed) }

/-- The stream that repeats the given words for ever. -/
def ofWords (words : Array UInt64) : Noise :=
  { word := fun n => words.getD (n % words.size) 0 }

/-- The number in `[0, 1)` whose 52 binary places are the upper bits of a word. -/
def fraction (word : UInt64) : Float :=
  Float.ofBits ((word >>> 12) ||| 0x3ff0000000000000) - 1.0

/-- The factor that spreads the fractions over an interval of length two, both ends included: two divided by the
greatest fraction. -/
def spread : Float :=
  2.0 / (1.0 - Float.ofBits 0x3cb0000000000000)

/-- The number in `[-1, 1]` that a word stands for, as the library draws it: the fraction is spread, and then moved to
the lower end of the interval. -/
def ofWord (word : UInt64) : Float :=
  fraction word * spread + -1.0

/-- The next number, and the stream after it. -/
def draw (noise : Noise) : Float × Noise :=
  (ofWord (noise.word noise.drawn), { noise with drawn := noise.drawn + 1 })

end Noise

end Ostinato
