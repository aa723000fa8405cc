import Ostinato.Audio.Synth
import Ostinato.Machine.Run

/-!
# Rendering

A program is run to its end, its events are played in the order of their stamps, and the tracks are mixed, with
silence behind them if a tail is asked for.
-/

namespace Ostinato

/-- What a render depends on besides the program. -/
structure RenderConfig where
  sampleRate : UInt32 := 44100
  noiseSeed : UInt64 := 0
  /-- The number of instructions after which a program is cut short, if it is. -/
  maxInstructions : Option Nat := none
  /-- The length of the silence after the last sound. -/
  tailTicks : Ticks := 0

/-- What a render produced. -/
structure Render where
  exit : Exit
  /-- The events in the order in which they were played. -/
  events : List Event
  tracks : Tracks
  master : Buffer

def RenderConfig.timebase (config : RenderConfig) : Timebase :=
  ⟨config.sampleRate⟩

/-- The number of samples of the tail; a tail that does not fit a signed word is as long as the longest that does. -/
def RenderConfig.tail (config : RenderConfig) : Nat :=
  config.timebase.samplesFor (Int64.ofNat (min config.tailTicks.toNat Int64.maxValue.toNatClampNeg))

/-- Plays events into empty tracks, with the given noise, and mixes them. -/
def renderEvents (config : RenderConfig) (noise : Noise) (exit : Exit) (events : List Event) :
    Except AudioError Render := do
  let (_, tracks) ← Synth.renderAll? ⟨config.timebase, noise⟩ events {}
  let master ← tracks.mixdown? (tracks.length + config.tail)
  return ⟨exit, events, tracks, master⟩

/-- Runs a program, plays the events that it has scheduled, with the given noise, and mixes them. -/
def renderWith (noise : Noise) (program : Program) (config : RenderConfig) : Except AudioError Render :=
  match run? .collect program config.maxInstructions {} with
  | none => .error .endless
  | some outcome => renderEvents config noise outcome.exit outcome.received.sorted

/-- Renders a program with the noise of the seed. -/
def render (program : Program) (config : RenderConfig) : Except AudioError Render :=
  renderWith (.ofSeed config.noiseSeed) program config

end Ostinato
