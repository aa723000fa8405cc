import Ostinato.Numeric.Elementary
import Ostinato.Score.Event

/-!
# Track buffers and mixing

Each track has a buffer of single precision samples that grows with silence and that sounds are added into.  The mix
adds the tracks sample by sample, in their order, and limits the sum softly.

* `Buffer.addSpan?`: adds a wave into a span of a buffer; no buffer may be longer than `maxSamples`.
* `Tracks.mixdown?`: the mix, padded with silence to a least length.
-/

namespace Ostinato

open Numeric

/-- The greatest number of samples that a file can hold while its size fits 32 bits. -/
def maxSamples : Nat := (UInt32.size - 1 - 36) / 2

/-- What can go wrong while audio is made. -/
inductive AudioError where
  /-- The audio would have more than `maxSamples` samples. -/
  | tooLong
  /-- A pitch is so low that its distance from the tuning note does not fit a word. -/
  | pitchOverflow
  /-- The program never ends. -/
  | endless
deriving DecidableEq, Repr

def AudioError.message : AudioError → String
  | tooLong => "render too long: the audio would run past " ++ toString maxSamples ++ " samples"
  | pitchOverflow => "attempt to subtract with overflow"
  | endless => "the program never ends"

/-! ### Buffers -/

/-- The samples of one track. -/
abbrev Buffer := Array Float32

namespace Buffer

/-- The buffer with silence behind it up to the given length. -/
def grow (buffer : Buffer) (length : Nat) : Buffer :=
  buffer ++ Array.replicate (length - buffer.size) 0.0

/-- The buffer grown to hold `length` samples from `start` on. -/
def reach? (buffer : Buffer) (start length : Nat) : Except AudioError Buffer :=
  if start + length ≤ maxSamples then .ok (buffer.grow (start + length)) else .error .tooLong

/-- Adds `count` samples of a sound to the buffer, from its `i`th on, where the sound is heard from `start` on.  The
samples are made one after the other, each from its number and what the ones before have left of a source. -/
def addFrom {σ : Type} (sample : Nat → σ → Float32 × σ) (start : Nat) : (count i : Nat) → σ → Buffer → σ × Buffer
  | 0, _, source, buffer => (source, buffer)
  | count + 1, i, source, buffer =>
    let (x, source) := sample i source
    addFrom sample start count (i + 1) source (buffer.modify (start + i) (· + x))

/-- Adds the first `length` samples of a wave to the buffer, from `start` on. -/
def add (buffer : Buffer) (start length : Nat) (wave : Nat → Float32) : Buffer :=
  (addFrom (fun i source => (wave i, source)) start length 0 () buffer).2

/-- Adds the first `length` samples of a wave to the buffer, from `start` on, growing the buffer as needed. -/
def addSpan? (buffer : Buffer) (start length : Nat) (wave : Nat → Float32) : Except AudioError Buffer := do
  return (← buffer.reach? start length).add start length wave

end Buffer

/-! ### Limiting -/

/-- Keeps a sum of samples within `[-0.8, 0.8]` without clipping it. -/
def softLimit (sample : Float32) : Float32 :=
  tanhSingle (sample * 0.7) * 0.8

/-! ### Tracks -/

/-- The buffers of all tracks. -/
structure Tracks where
  bass : Buffer := #[]
  guitar : Buffer := #[]
  drums : Buffer := #[]

namespace Tracks

def get (tracks : Tracks) : Track → Buffer
  | .bass => tracks.bass
  | .guitar => tracks.guitar
  | .drums => tracks.drums

/-- Replaces the buffer of a track by what `f` makes of it, unless `f` fails. -/
def modify? {α : Type} (f : Buffer → Except AudioError (α × Buffer)) :
    Track → Tracks → Except AudioError (α × Tracks)
  | .bass, ⟨bass, guitar, drums⟩ => do
    let (a, bass) ← f bass
    return (a, ⟨bass, guitar, drums⟩)
  | .guitar, ⟨bass, guitar, drums⟩ => do
    let (a, guitar) ← f guitar
    return (a, ⟨bass, guitar, drums⟩)
  | .drums, ⟨bass, guitar, drums⟩ => do
    let (a, drums) ← f drums
    return (a, ⟨bass, guitar, drums⟩)

def lengths (tracks : Tracks) : List Nat :=
  Track.all.map fun track => (tracks.get track).size

def length (tracks : Tracks) : Nat :=
  tracks.lengths.foldl max 0

def isEmpty (tracks : Tracks) : Bool :=
  tracks.length == 0

/-! ### Mixing -/

/-- Adds the buffers up, in the order of the tracks, over silence of the given length. -/
def sum (tracks : Tracks) (length : Nat) : Buffer :=
  Track.all.foldl
    (fun master track => Buffer.add master 0 (tracks.get track).size fun i => (tracks.get track).getD i 0.0)
    (Array.replicate length 0.0)

/-- The softly limited sum of the tracks, at least `least` samples long. -/
def mixdown? (tracks : Tracks) (least : Nat) : Except AudioError Buffer :=
  let length := max tracks.length least
  if length ≤ maxSamples then .ok ((tracks.sum length).map softLimit) else .error .tooLong

end Tracks

end Ostinato
