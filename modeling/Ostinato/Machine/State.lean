import Ostinato.Score.Event

/-!
# States and steps

The machine has a program counter, four registers, a clock in ticks, and settings that it records without using them.
An instruction changes the state and says where to go on; the counter and the number of steps are kept by `step`.

* `effect`: what an instruction does to the registers, the clock and the settings, and where it leads.
* `State.step`: the state after one instruction.
-/

namespace Ostinato

structure State where
  /-- The index of the next instruction. -/
  pc : Nat := 0
  registers : Vector Int64 registerCount := Vector.replicate registerCount 0
  /-- The time that has passed; only `WAIT` moves it, and only forwards. -/
  clock : Ticks := 0
  /-- The number of instructions executed.  It is not bounded, while a machine word counts up to `2 ^ 64`; a run that
  long is out of reach. -/
  steps : Nat := 0
  tempo : Option Int64 := none
  timeSignature : Option (Int64 × Int64) := none
  track : Option Int64 := none
deriving DecidableEq

/-- Where an instruction leads. -/
inductive Flow where
  | next
  | jump (target : Nat)
  | halt
deriving DecidableEq

/-- The number before this one, or this one if it is the least. -/
def saturatingPred (value : Int64) : Int64 :=
  if value = Int64.minValue then value else value - 1

/-- The time that a wait takes; a negative one takes none. -/
def waitTicks (ticks : Int64) : Ticks :=
  if ticks < 0 then 0 else ticks.toUInt64

/-- What an instruction does to the registers, the clock and the settings, and where it leads. -/
def effect (i : Instruction) (s : State) : State × Flow :=
  match i with
  | .setTempo bpm => ({ s with tempo := some bpm }, .next)
  | .setTimeSignature beats unit => ({ s with timeSignature := some (beats, unit) }, .next)
  | .track id => ({ s with track := some id }, .next)
  | .note _ | .chord _ | .drum _ => (s, .next)
  | .wait ticks => ({ s with clock := s.clock.saturatingAdd (waitTicks ticks) }, .next)
  | .load none _ => (s, .next)
  | .load (some r) value => ({ s with registers := s.registers.set r value }, .next)
  | .decJnz none _ => (s, .next)
  | .decJnz (some r) target =>
    let value := saturatingPred s.registers[r]
    ({ s with registers := s.registers.set r value },
      match target with
      | some t => if 0 < value then .jump t else .next
      | none => .next)
  | .jmp none => (s, .next)
  | .jmp (some t) => (s, .jump t)
  | .halt => (s, .halt)
  | .unknown _ => (s, .next)

/-- The index of the next instruction: a halted machine stays where it is. -/
def Flow.follow (pc : Nat) : Flow → Nat
  | next => pc + 1
  | jump target => target
  | halt => pc

/-- The state after one instruction. -/
def State.step (s : State) (i : Instruction) : State :=
  { (effect i s).1 with pc := (effect i s).2.follow s.pc, steps := s.steps + 1 }

end Ostinato
