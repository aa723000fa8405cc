import Ostinato.Text.Blank

/-!
# Operands

The operands of an instruction are read from left to right and forgivingly.  An integer is the longest start of the
next word that looks like one, and what follows it in the word is the next thing to be read.  Once an integer cannot
be read, it and all later ones are zero and no word is found any more.

* `splitInteger?`: the integer that a word starts with, and the rest of the word.
* `Operands.int`, `Operands.ints`, `Operands.word`: the readers.
-/

namespace Ostinato

/-! ### Integers at the start of a word -/

def digitsValue (digits : List Char) : Nat :=
  digits.foldl (fun value digit => 10 * value + (digit.toNat - '0'.toNat)) 0

/-- Splits a word behind its sign, which may be missing. -/
def splitSign : List Char → Bool × List Char
  | '+' :: rest => (false, rest)
  | '-' :: rest => (true, rest)
  | word => (false, word)

/-- The integer whose sign and digits a word starts with, as many digits as there are, and the rest of the word. -/
def splitInteger? (word : List Char) : Option (Int × List Char) :=
  let (negative, rest) := splitSign word
  let digits := rest.takeWhile Char.isDigit
  if digits.isEmpty then none
  else
    let size : Int := digitsValue digits
    some (if negative then -size else size, rest.dropWhile Char.isDigit)

/-- The signed word with the given value, if there is one. -/
def int64? (value : Int) : Option Int64 :=
  if Int64.minValue.toInt ≤ value ∧ value ≤ Int64.maxValue.toInt then some (Int64.ofInt value) else none

/-- The integer that a word starts with and the rest of the word, if the integer fits a signed word. -/
def readInteger? (word : List Char) : Option (Int64 × List Char) := do
  let (value, rest) ← splitInteger? word
  return (← int64? value, rest)

/-! ### Readers -/

/-- The first operand that could not be read: how many were read before it, and its text, which is empty if it was
missing. -/
structure Failure where
  position : Nat
  text : List Char
deriving DecidableEq

/-- The operands that are still to be read. -/
structure Operands where
  /-- What is left of each word; the first of them may be the rest of a word that an integer was taken from. -/
  unread : List (List Char)
  /-- The number of reads so far. -/
  position : Nat := 0
  failure : Option Failure := none
deriving DecidableEq

namespace Operands

/-- Nothing more can be read. -/
def fail (args : Operands) (text : List Char) (unread : List (List Char)) : Operands :=
  { unread, position := args.position + 1, failure := some ⟨args.position, text⟩ }

/-- Reads an integer, or zero if there is none. -/
def int (args : Operands) : Int64 × Operands :=
  if args.failure.isSome then (0, args)
  else
    match args.unread with
    | [] => (0, args.fail [] [])
    | word :: unread =>
      match readInteger? word with
      | none => (0, args.fail word unread)
      | some (value, rest) =>
        let unread := if rest.isEmpty then unread else rest :: unread
        (value, { args with unread, position := args.position + 1 })

def ints : Nat → Operands → List Int64 × Operands
  | 0, args => ([], args)
  | count + 1, args =>
    let (value, args) := args.int
    let (values, args) := ints count args
    (value :: values, args)

/-- Reads a word, if there is one. -/
def word (args : Operands) : Option (List Char) × Operands :=
  if args.failure.isSome then (none, args)
  else
    match args.unread with
    | [] => (none, { args with position := args.position + 1 })
    | word :: unread => (some word, { args with unread, position := args.position + 1 })

def remaining (args : Operands) : Nat :=
  args.unread.length

end Operands

end Ostinato
