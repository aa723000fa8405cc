/-!
# Instructions

The instruction set: three musical instructions (a note, a chord, a drum hit), a tick clock that `WAIT` moves, four
registers for counted loops, jumps, and settings that are recorded only.

* `Opcode.ofMnemonic?_mnemonic`: a mnemonic names its opcode, and `Opcode.ofMnemonic?_eq_some_iff` that no other
  text does.
* `DrumKind.code_ofCode`: a drum kind made from a code has that code.
-/

namespace Ostinato

/-! ### Opcodes -/

/-- What an instruction does. -/
inductive Opcode where
  | setTempo
  | setTimeSignature
  | track
  | note
  | chord
  | drum
  | wait
  | load
  | decJnz
  | jmp
  | halt
deriving DecidableEq, Repr

namespace Opcode

/-- All opcodes, in their order. -/
def all : List Opcode :=
  [setTempo, setTimeSignature, track, note, chord, drum, wait, load, decJnz, jmp, halt]

/-- The name of an opcode in a program text. -/
def mnemonic : Opcode → String
  | setTempo => "SET_TEMPO"
  | setTimeSignature => "SET_TS"
  | track => "TRACK"
  | note => "NOTE"
  | chord => "CHORD"
  | drum => "DRUM"
  | wait => "WAIT"
  | load => "LOAD"
  | decJnz => "DECJNZ"
  | jmp => "JMP"
  | halt => "HALT"

/-- The opcode with the given name; names are case sensitive. -/
def ofMnemonic? (name : String) : Option Opcode :=
  all.find? (·.mnemonic == name)

theorem mnemonic_injective {a b : Opcode} (h : a.mnemonic = b.mnemonic) : a = b := by
  revert h; cases a <;> cases b <;> decide

theorem ofMnemonic?_mnemonic (opcode : Opcode) : ofMnemonic? opcode.mnemonic = some opcode := by
  cases opcode <;> decide

theorem ofMnemonic?_eq_some_iff {name : String} {opcode : Opcode} :
    ofMnemonic? name = some opcode ↔ opcode.mnemonic = name := by
  refine ⟨fun h => ?_, fun h => h ▸ ofMnemonic?_mnemonic opcode⟩
  simpa using List.find?_some h

end Opcode

/-! ### Registers -/

abbrev registerCount : Nat := 4

/-- One of the registers `R0` to `R3`. -/
abbrev Register := Fin registerCount

def Register.ofNat? (n : Nat) : Option Register :=
  if h : n < registerCount then some ⟨n, h⟩ else none

/-- The register that a word names: its second character is the number, whatever the first one is and whatever
follows. -/
def Register.ofWord? (word : List Char) : Option Register :=
  match word with
  | _ :: digit :: _ => if digit.isDigit then Register.ofNat? (digit.toNat - '0'.toNat) else none
  | _ => none

/-! ### Musical operands -/

/-- A single pitch; pitch 69 is the A at 440 Hz and each step is a semitone. -/
structure Note where
  pitch : Int64
  velocity : Int64
  duration : Int64
deriving DecidableEq

/-- Several pitches sounded together. -/
structure Chord where
  pitches : List Int64
  velocity : Int64
  duration : Int64
deriving DecidableEq

/-- The percussive sounds; any code but the first three stands for a silent one. -/
inductive DrumKind where
  | kick
  | snare
  | hiHat
  | other (code : Int64)
deriving DecidableEq

def DrumKind.ofCode (code : Int64) : DrumKind :=
  if code = 0 then kick else if code = 1 then snare else if code = 2 then hiHat else other code

def DrumKind.code : DrumKind → Int64
  | kick => 0
  | snare => 1
  | hiHat => 2
  | other code => code

theorem DrumKind.code_ofCode (code : Int64) : (DrumKind.ofCode code).code = code := by
  unfold ofCode; split <;> (try split) <;> (try split) <;> simp_all [DrumKind.code]

structure Drum where
  kind : DrumKind
  velocity : Int64
  duration : Int64
deriving DecidableEq

/-! ### Instructions -/

/-- An instruction with its operands.  Jump targets are indices of instructions; a register that does not exist and
a target whose label was never declared are absent. -/
inductive Instruction where
  | setTempo (bpm : Int64)
  | setTimeSignature (beats unit : Int64)
  | track (id : Int64)
  | note (n : Note)
  | chord (c : Chord)
  | drum (d : Drum)
  | wait (ticks : Int64)
  | load (register : Option Register) (value : Int64)
  | decJnz (register : Option Register) (target : Option Nat)
  | jmp (target : Option Nat)
  | halt
  | unknown (mnemonic : String)
deriving DecidableEq

/-- A program is run from its first instruction. -/
abbrev Program := Array Instruction

end Ostinato
