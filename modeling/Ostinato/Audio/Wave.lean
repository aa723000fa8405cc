import Ostinato.Audio.Tracks

/-!
# Wave files

A mix is rounded to 16-bit samples and encoded as one channel of PCM audio: a RIFF header, a format chunk and a data
chunk, all numbers little-endian.  The encoding is a list of parts that a writer takes one after the other.

* `quantize`: the 16-bit sample for a sample of the mix.
* `waveParts`: the parts of a file; a part that is missing holds a number that does not fit its field.
* `writeParts`: what a writer with limited room takes of the parts.
* `writeWave`, `waveBytes`: what a writer takes of a file, and the whole file.
-/

namespace Ostinato

open Numeric

/-! ### Samples -/

/-- Keeps a number within `[-1, 1]`. -/
def clampUnit (x : Float) : Float :=
  if x < -1.0 then -1.0 else if x > 1.0 then 1.0 else x

/-- The 16-bit sample for a sample of the mix, rounded towards zero. -/
def quantize (sample : Float32) : Int16 :=
  truncate16 (clampUnit (widen sample) * 32767.0)

def quantizeAll (master : Buffer) : List Int16 :=
  master.toList.map quantize

/-! ### Parts of a file -/

/-- The given number of lower bytes of a word, the lowest first. -/
def littleEndian : (width : Nat) → UInt32 → List UInt8
  | 0, _ => []
  | width + 1, word => word.toUInt8 :: littleEndian width (word >>> 8)

/-- The characters of an ASCII text, as bytes. -/
def ascii (text : String) : List UInt8 :=
  text.toList.map fun c => UInt8.ofNat c.toNat

/-- The number of bytes of a sample. -/
def blockAlign : UInt32 := 2

/-- The number of bytes of a second of audio, if it fits a word. -/
def byteRate? (sampleRate : UInt32) : Option UInt32 :=
  if sampleRate.toNat * blockAlign.toNat < UInt32.size then some (sampleRate * blockAlign) else none

/-- The number of bytes of the samples, if it and the size of the whole file fit a word. -/
def dataSize? (count : Nat) : Option UInt32 :=
  let size := count * blockAlign.toNat
  if size + 36 < UInt32.size then some (UInt32.ofNat size) else none

/-- The parts of a file with the given sample rate and samples, which have `dataSize` bytes.  The number of bytes of
a second is missing if it does not fit its field. -/
def waveParts (dataSize sampleRate : UInt32) (samples : List Int16) : List (Option (List UInt8)) :=
  [some (ascii "RIFF"), some (littleEndian 4 (36 + dataSize)), some (ascii "WAVE"),
    some (ascii "fmt "), some (littleEndian 4 16), some (littleEndian 2 1), some (littleEndian 2 1),
    some (littleEndian 4 sampleRate), (byteRate? sampleRate).map (littleEndian 4),
    some (littleEndian 2 blockAlign), some (littleEndian 2 16),
    some (ascii "data"), some (littleEndian 4 dataSize)] ++
  samples.map fun sample => some (littleEndian 2 sample.toUInt16.toUInt32)

/-! ### Writers -/

/-- Why a file was not written completely. -/
inductive WriteError where
  /-- The writer has no room left. -/
  | full
  /-- The number of bytes of a second does not fit its field. -/
  | byteRateOverflow
  /-- There are so many samples that the size of the file does not fit its field. -/
  | tooManySamples (count : Nat)
deriving DecidableEq, Repr

def WriteError.message : WriteError → String
  | full => "failed to write whole buffer"
  | byteRateOverflow => "attempt to multiply with overflow"
  | tooManySamples count => toString count ++ " samples do not fit in a WAV file"

/-- What a writer has taken, and why it has not taken everything. -/
structure Written where
  taken : Array UInt8 := #[]
  failure : Option WriteError := none
deriving DecidableEq

/-- Writes parts one after the other to a writer that has already taken some bytes and takes `room` more, or any
number of them.  Of the part that does not fit, it takes what does; nothing is written from a missing part on. -/
def writeParts (room : Option Nat) (taken : Array UInt8) : List (Option (List UInt8)) → Written
  | [] => ⟨taken, none⟩
  | none :: _ => ⟨taken, some .byteRateOverflow⟩
  | some part :: parts =>
    match room with
    | none => writeParts none (taken ++ part) parts
    | some free =>
      if part.length ≤ free then writeParts (some (free - part.length)) (taken ++ part) parts
      else ⟨taken ++ part.take free, some .full⟩

/-- Writes a file to a writer that takes `room` bytes, or any number of them. -/
def writeWave (room : Option Nat) (samples : List Int16) (sampleRate : UInt32) : Written :=
  match dataSize? samples.length with
  | none => ⟨#[], some (.tooManySamples samples.length)⟩
  | some size => writeParts room #[] (waveParts size sampleRate samples)

def waveBytes (samples : List Int16) (sampleRate : UInt32) : Written :=
  writeWave none samples sampleRate

end Ostinato
