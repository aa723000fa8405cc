import Ostinato.Instruction

/-!
# Events and schedules

A musical instruction becomes an event when it is stamped with the clock.  Its track follows from the kind of sound
alone: notes go to the bass, chords to the guitar, hits to the drums.  A schedule collects events in the order in
which they arrive, and plays them in the order of their stamps, ties as they arrived.
-/

namespace Ostinato

/-- The unit of time of the machine. -/
abbrev Ticks := UInt64

/-- The sum of two times, or the last time there is if the sum is past it. -/
def Ticks.saturatingAdd (a b : Ticks) : Ticks :=
  if a.toNat + b.toNat < UInt64.size then a + b else UInt64.ofNat (UInt64.size - 1)

/-! ### Tracks -/

/-- The instruments, each with a buffer of its own. -/
inductive Track where
  | bass
  | guitar
  | drums
deriving DecidableEq, Repr

/-- The tracks in the order in which they are mixed. -/
def Track.all : List Track :=
  [bass, guitar, drums]

/-! ### Sounds -/

/-- What is played. -/
inductive Sound where
  | note (n : Note)
  | chord (c : Chord)
  | drum (d : Drum)
deriving DecidableEq

namespace Sound

def track : Sound → Track
  | note _ => .bass
  | chord _ => .guitar
  | drum _ => .drums

/-- How long a sound is played, in ticks. -/
def duration : Sound → Int64
  | note n => n.duration
  | chord c => c.duration
  | drum d => d.duration

def instruction : Sound → Instruction
  | note n => .note n
  | chord c => .chord c
  | drum d => .drum d

end Sound

/-- The sound that an instruction plays, if it is a musical one. -/
def Instruction.sound? : Instruction → Option Sound
  | .note n => some (.note n)
  | .chord c => some (.chord c)
  | .drum d => some (.drum d)
  | _ => none

/-! ### Events -/

/-- A sound and the time at which it starts. -/
structure Event where
  timestamp : Ticks
  sound : Sound
deriving DecidableEq

def Event.track (event : Event) : Track :=
  event.sound.track

/-! ### Schedules -/

/-- Events in the order in which they were scheduled. -/
structure Schedule where
  events : Array Event := #[]
deriving DecidableEq

namespace Schedule

def push (schedule : Schedule) (event : Event) : Schedule :=
  ⟨schedule.events.push event⟩

def size (schedule : Schedule) : Nat :=
  schedule.events.size

def isEmpty (schedule : Schedule) : Bool :=
  schedule.events.isEmpty

/-- The events in the order of their stamps, ties in the order in which they were scheduled. -/
def sorted (schedule : Schedule) : List Event :=
  schedule.events.toList.mergeSort fun a b => a.timestamp ≤ b.timestamp

end Schedule

end Ostinato
