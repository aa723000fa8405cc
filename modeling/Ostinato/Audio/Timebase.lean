import Ostinato.Numeric.Binary
import Ostinato.Score.Event

/-!
# Ticks and samples

A beat has 480 ticks and lasts half a second, whatever tempo a program sets.  Times are converted to samples in
double precision, dividing before multiplying, and rounded down.
-/

namespace Ostinato

open Numeric

def ticksPerBeat : Float := 480.0

def beatsPerMinute : Float := 120.0

def ticksPerSecond : Float :=
  ticksPerBeat * (beatsPerMinute / 60.0)

/-- The number of samples of a second. -/
structure Timebase where
  sampleRate : UInt32 := 44100
deriving DecidableEq

namespace Timebase

/-- The sample rate as a number of double precision. -/
def rate (timebase : Timebase) : Float :=
  timebase.sampleRate.toFloat

/-- The sample at which an event starts, if its index fits a word. -/
def sampleAt (timebase : Timebase) (ticks : Ticks) : Option Nat :=
  let sample := ticks.toFloat / ticksPerSecond * timebase.rate
  if sample < 18446744073709551616.0 then some sample.toUInt64.toNat else none

/-- The number of samples that a duration spans, at most the greatest word; a negative duration spans none. -/
def samplesFor (timebase : Timebase) (duration : Int64) : Nat :=
  (ofInt64 duration / ticksPerSecond * timebase.rate).toUInt64.toNat

/-- The time in seconds from the start of an event to its `i`th sample. -/
def seconds (timebase : Timebase) (i : UInt64) : Float :=
  i.toFloat / timebase.rate

end Timebase

end Ostinato
