import Ostinato.Instruction
import Ostinato.Text.Quoted

/-!
# Warnings

The faults of a program text.  None of them keeps a program from running: what cannot be understood is skipped or
read as zero.
-/

namespace Ostinato

/-- A fault of a program text. -/
inductive Warning where
  /-- An instruction starts with a word that is no mnemonic. -/
  | unknownOpcode (mnemonic : String)
  /-- An operand is missing, which makes its text empty, or is no integer. -/
  | argument (opcode : Opcode) (position : Nat) (text : String)
  /-- A word names no register. -/
  | register (opcode : Opcode) (word : String)
  /-- A jump leads to a label that is not declared. -/
  | unknownLabel (opcode : Opcode) (name : String)
  /-- A label was declared before. -/
  | duplicateLabel (name : String)
deriving DecidableEq

namespace Warning

/-- The opcode of the instruction that the warning is about, if it is known. -/
def opcode? : Warning → Option Opcode
  | unknownOpcode _ => none
  | argument opcode _ _ => some opcode
  | register opcode _ => some opcode
  | unknownLabel opcode _ => some opcode
  | duplicateLabel _ => none

/-- The piece of the program text that is at fault. -/
def text : Warning → String
  | unknownOpcode mnemonic => mnemonic
  | argument _ _ text => text
  | register _ word => word
  | unknownLabel _ name => name
  | duplicateLabel name => name

def message : Warning → String
  | unknownOpcode mnemonic => "Unknown opcode `" ++ mnemonic ++ "`, it will be skipped"
  | argument opcode position text =>
    "Argument " ++ toString position ++ " to `" ++ opcode.mnemonic ++ "` is missing or not an integer: " ++
      Text.quote text ++ ", reading it and the rest as 0"
  | register opcode word =>
    "`" ++ opcode.mnemonic ++ "` register `" ++ word ++
      "` is not one of R0..R3, the instruction will be ignored"
  | unknownLabel opcode name =>
    "`" ++ opcode.mnemonic ++ "` jumps to undeclared label `" ++ name ++ "`, the jump will be skipped"
  | duplicateLabel name =>
    "Label `" ++ name ++ "` is declared more than once, jumps go to the last declaration"

end Warning

end Ostinato
