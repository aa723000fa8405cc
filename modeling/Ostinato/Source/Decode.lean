import Ostinato.Source.Operands
import Ostinato.Source.Warning

/-!
# Decoding

One line of a program text becomes one instruction.  Decoding never fails: what is missing or malformed is reported
and stands for zero, for no register or for no target.

* `decode`: the instruction that a line stands for and the warnings about it.
* `decodeOperands`: the same for the operands of a known opcode.
-/

namespace Ostinato

/-- What a jump leads to: the index that a label is bound to. -/
abbrev Labels := String → Option Nat

/-! ### Operands that are words -/

def readRegister (opcode : Opcode) (args : Operands) : Option Register × List Warning × Operands :=
  let (word, args) := args.word
  match word with
  | none => (none, [.argument opcode 0 ""], args)
  | some word =>
    match Register.ofWord? word with
    | none => (none, [.register opcode (String.ofList word)], args)
    | some register => (some register, [], args)

/-- Reads the target of a jump; a missing label is the one with the empty name. -/
def readTarget (labels : Labels) (opcode : Opcode) (args : Operands) : Option Nat × List Warning × Operands :=
  let (word, args) := args.word
  let name := String.ofList (word.getD [])
  match labels name with
  | none => (none, [.unknownLabel opcode name], args)
  | some target => (some target, [], args)

/-! ### Chords -/

/-- Reads the pitches of a chord, whose number comes first.  No more are read than there are words left; if that is
fewer than announced, one more read makes sure that the velocity and the duration are zero. -/
def readPitches (args : Operands) : List Int64 × Operands :=
  let (count, args) := args.int
  let announced := count.toInt.toNat
  let available := min announced args.remaining
  let (pitches, args) := args.ints available
  (pitches, if available < announced then args.int.2 else args)

/-! ### Lines -/

/-- The instruction with the given opcode, the warnings about its registers and labels, and what is left of its
operands. -/
def readInstruction (labels : Labels) (opcode : Opcode) (args : Operands) :
    Instruction × List Warning × Operands :=
  match opcode with
  | .setTempo =>
    let (bpm, args) := args.int
    (.setTempo bpm, [], args)
  | .setTimeSignature =>
    let (beats, args) := args.int
    let (unit, args) := args.int
    (.setTimeSignature beats unit, [], args)
  | .track =>
    let (id, args) := args.int
    (.track id, [], args)
  | .note =>
    let (pitch, args) := args.int
    let (velocity, args) := args.int
    let (duration, args) := args.int
    (.note ⟨pitch, velocity, duration⟩, [], args)
  | .chord =>
    let (pitches, args) := readPitches args
    let (velocity, args) := args.int
    let (duration, args) := args.int
    (.chord ⟨pitches, velocity, duration⟩, [], args)
  | .drum =>
    let (code, args) := args.int
    let (velocity, args) := args.int
    let (duration, args) := args.int
    (.drum ⟨DrumKind.ofCode code, velocity, duration⟩, [], args)
  | .wait =>
    let (ticks, args) := args.int
    (.wait ticks, [], args)
  | .load =>
    let (register, warnings, args) := readRegister opcode args
    let (value, args) := args.int
    (.load register value, warnings, args)
  | .decJnz =>
    let (register, registerWarnings, args) := readRegister opcode args
    let (target, targetWarnings, args) := readTarget labels opcode args
    (.decJnz register target, registerWarnings ++ targetWarnings, args)
  | .jmp =>
    let (target, warnings, args) := readTarget labels opcode args
    (.jmp target, warnings, args)
  | .halt => (.halt, [], args)

/-- The warning about the first integer that could not be read. -/
def Failure.warning (opcode : Opcode) (failure : Failure) : Warning :=
  .argument opcode failure.position (String.ofList failure.text)

/-- The instruction with the given opcode and operands, and the warnings about it. -/
def decodeOperands (labels : Labels) (opcode : Opcode) (operands : List (List Char)) :
    Instruction × List Warning :=
  let (instruction, warnings, args) := readInstruction labels opcode { unread := operands }
  (instruction, warnings ++ (args.failure.map (Failure.warning opcode)).toList)

/-- The instruction that the words of a line stand for, and the warnings about it. -/
def decodeWords (labels : Labels) (words : List (List Char)) : Instruction × List Warning :=
  let mnemonic := String.ofList (words.headD [])
  match Opcode.ofMnemonic? mnemonic with
  | none => (.unknown mnemonic, [.unknownOpcode mnemonic])
  | some opcode => decodeOperands labels opcode words.tail

/-- The instruction that a line stands for, and the warnings about it. -/
def decode (labels : Labels) (line : String) : Instruction × List Warning :=
  decodeWords labels (Text.words line.toList)

end Ostinato
