import Ostinato.Machine.State

/-!
# Runs

A program is run from its first instruction until the counter leaves it, a `HALT` is executed, or a given number of
instructions is used up.  The first of these tests comes first: a program that has just ended is not cut short.

* `runWithin`: a run with a ceiling, which always ends.
* `run?`: a run with or without a ceiling.  There are only `controlStates` many combinations of counter and
  registers, and they alone decide where a program goes; one that executes more instructions than that never ends.
-/

namespace Ostinato

/-- Why a run ended. -/
inductive Exit where
  /-- The counter left the program. -/
  | endOfProgram
  /-- A `HALT` was executed. -/
  | halted
  /-- The ceiling was reached. -/
  | instructionLimit
deriving DecidableEq, Repr

/-! ### Backends -/

/-- What becomes of the events of a run: each is handed over with the state in which it was scheduled. -/
structure Backend (σ : Type) where
  schedule : Event → State → σ → σ

def Backend.discard : Backend Unit :=
  ⟨fun _ _ _ => ()⟩

def Backend.collect : Backend Schedule :=
  ⟨fun event _ schedule => schedule.push event⟩

/-- Hands over the event of an instruction, if it has one. -/
def Backend.receive {σ : Type} (backend : Backend σ) (i : Instruction) (s : State) (received : σ) : σ :=
  match i.sound? with
  | some sound => backend.schedule ⟨s.clock, sound⟩ s received
  | none => received

/-! ### Runs -/

/-- How a run ended, in which state, and what the backend has made of its events. -/
structure Outcome (σ : Type) where
  exit : Exit
  state : State
  received : σ

/-- Runs a program from the given state for at most `budget` instructions. -/
def runFrom {σ : Type} (backend : Backend σ) (program : Program) : (budget : Nat) → State → σ → Outcome σ
  | 0, s, received =>
    ⟨if s.pc < program.size then .instructionLimit else .endOfProgram, s, received⟩
  | budget + 1, s, received =>
    match program[s.pc]? with
    | none => ⟨.endOfProgram, s, received⟩
    | some .halt => ⟨.halted, s.step .halt, received⟩
    | some i => runFrom backend program budget (s.step i) (backend.receive i s received)

/-- Runs a program from its start for at most `ceiling` instructions. -/
def runWithin {σ : Type} (backend : Backend σ) (program : Program) (ceiling : Nat) (received : σ) : Outcome σ :=
  runFrom backend program ceiling {} received

/-- The number of combinations of a counter inside the program and four registers. -/
def controlStates (program : Program) : Nat :=
  program.size * Nat.pow UInt64.size registerCount

/-- Runs a program from its start, without a ceiling if none is given; a run that never ends has no outcome. -/
def run? {σ : Type} (backend : Backend σ) (program : Program) (ceiling : Option Nat) (received : σ) :
    Option (Outcome σ) :=
  match ceiling with
  | some ceiling => some (runWithin backend program ceiling received)
  | none =>
    let outcome := runWithin backend program (controlStates program) received
    if outcome.exit = .instructionLimit then none else some outcome

end Ostinato
