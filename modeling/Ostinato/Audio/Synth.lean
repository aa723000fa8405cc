import Ostinato.Audio.Noise
import Ostinato.Audio.Timebase
import Ostinato.Audio.Tracks

/-!
# Synthesis

The samples of a sound are made one after the other, from the time since its start and, for some drums, a random
number each.  They are computed in double precision and rounded to single precision when they are added to a buffer.

* `noteSample`, `chordSample`, `drumSample`: the sounds as functions of the time.
* `Sound.sample?`: the samples of a sound.
* `Synth.play?`, `Synth.render?`: adding a sound or an event to a buffer.
-/

namespace Ostinato

open Numeric

/-! ### Tuning and loudness -/

/-- The ratio of the circumference of a circle to its diameter. -/
def pi : Float := 3.141592653589793

/-- The pitch that the others are tuned by. -/
def tuningPitch : Int64 := 69

/-- The frequency of a pitch, unless its distance from the tuning note does not fit a word. -/
def frequency? (pitch : Int64) : Except AudioError Float :=
  if pitch.toInt - tuningPitch.toInt < Int64.minValue.toInt then .error .pitchOverflow
  else .ok (440.0 * powerOfTwo (ofInt64 (pitch - tuningPitch) / 12.0))

/-- The loudness of a velocity; the greatest usual one has loudness one. -/
def loudness (velocity : Int64) : Float :=
  ofInt64 velocity / 127.0

/-- A sine wave of the given frequency at time `t`. -/
def sineWave (frequency t : Float) : Float :=
  sine (2.0 * pi * frequency * t)

/-! ### Voices -/

/-- The wave form of notes. -/
inductive Voice where
  /-- A sine. -/
  | bass
  /-- A square wave. -/
  | guitar
deriving DecidableEq, Repr

def Voice.ofTrack : Track → Voice
  | .guitar => guitar
  | .bass | .drums => bass

/-- A note at time `t`. -/
def noteSample (voice : Voice) (velocity : Int64) (frequency t : Float) : Float :=
  let amplitude := loudness velocity * 0.3
  let phase := sineWave frequency t
  match voice with
  | .bass => amplitude * exponential (-t * 2.0) * phase
  | .guitar => amplitude * exponential (-t * 1.5) * (if phase > 0.0 then 1.0 else -1.0) * 0.5

/-- A chord at time `t`. -/
def chordSample (velocity : Int64) (frequencies : List Float) (t : Float) : Float :=
  let amplitude := loudness velocity * exponential (-t * 1.5) * 0.15
  frequencies.foldl (fun sum frequency => sum + amplitude * sineWave frequency t) 0.0

/-- The greatest size that a drum hit of the given velocity can have at time `t`. -/
def drumCeiling (kind : DrumKind) (velocity : Int64) (t : Float) : Float :=
  let amplitude := loudness velocity * 0.4
  match kind with
  | .kick => amplitude * exponential (-t * 15.0)
  | .snare => amplitude * exponential (-t * 10.0)
  | .hiHat => amplitude * exponential (-t * 20.0) * 0.5
  | .other _ => 0.0

/-- A drum hit at time `t`, where `noise` is the random number for that time.  The pitch of a kick falls. -/
def drumSample (kind : DrumKind) (velocity : Int64) (noise t : Float) : Float :=
  let amplitude := loudness velocity * 0.4
  match kind with
  | .kick => amplitude * exponential (-t * 15.0) * sineWave (60.0 * exponential (-t * 50.0)) t
  | .snare => amplitude * exponential (-t * 10.0) * noise
  | .hiHat => amplitude * exponential (-t * 20.0) * noise * 0.5
  | .other _ => 0.0

/-- The random number for a sample of a drum hit, and the noise that is left: only snares and hi-hats draw one. -/
def DrumKind.draw (noise : Noise) : DrumKind → Float × Noise
  | .snare | .hiHat => noise.draw
  | .kick | .other _ => (0.0, noise)

/-! ### Samples -/

/-- The samples of a sound, if its pitches have frequencies: the first one is at time zero, and each leaves the noise
that it has not drawn. -/
def Sound.sample? (timebase : Timebase) (voice : Voice) :
    Sound → Except AudioError (Nat → Noise → Float32 × Noise)
  | .note n => do
    let frequency ← frequency? n.pitch
    return fun i noise =>
      (narrow (noteSample voice n.velocity frequency (timebase.seconds (UInt64.ofNat i))), noise)
  | .chord c => do
    let frequencies ← c.pitches.mapM frequency?
    return fun i noise =>
      (narrow (chordSample c.velocity frequencies (timebase.seconds (UInt64.ofNat i))), noise)
  | .drum d =>
    return fun i noise =>
      let (value, noise) := d.kind.draw noise
      (narrow (drumSample d.kind d.velocity value (timebase.seconds (UInt64.ofNat i))), noise)

/-! ### Synthesizers -/

/-- A synthesizer: a timebase and a source of noise. -/
structure Synth where
  timebase : Timebase := {}
  noise : Noise

namespace Synth

/-- Adds a sound to a buffer, from `start` on.  Nothing has changed if it fails. -/
def play? (synth : Synth) (voice : Voice) (sound : Sound) (start : Nat) (buffer : Buffer) :
    Except AudioError (Synth × Buffer) := do
  let sample ← sound.sample? synth.timebase voice
  let length := synth.timebase.samplesFor sound.duration
  let buffer ← buffer.reach? start length
  let (noise, buffer) := buffer.addFrom sample start length 0 synth.noise
  return ({ synth with noise }, buffer)

/-- Adds an event to the buffer of its track. -/
def render? (synth : Synth) (event : Event) (tracks : Tracks) : Except AudioError (Synth × Tracks) :=
  match synth.timebase.sampleAt event.timestamp with
  | none => .error .tooLong
  | some start => tracks.modify? (synth.play? (Voice.ofTrack event.track) event.sound start) event.track

/-- Adds events to the buffers of their tracks, one after the other. -/
def renderAll? (synth : Synth) : List Event → Tracks → Except AudioError (Synth × Tracks)
  | [], tracks => .ok (synth, tracks)
  | event :: events, tracks => do
    let (synth, tracks) ← synth.render? event tracks
    renderAll? synth events tracks

end Synth

end Ostinato
