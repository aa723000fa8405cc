import Ostinato.Text.Blank

/-!
# Listings

A program text is read line by line.  A semicolon starts a comment, blanks around the code are dropped, and a line
without code says nothing.  What is left of a line is a statement: a label declaration if it starts with a colon, an
instruction otherwise.  A label is bound to the index of the instruction that follows it, and the last declaration
of a name is the one that counts.

* `code`, `content`: the part of a line that is not comment, and that part without the blanks around it.
* `statements`: what the lines of a text say, with their positions in the text.
* `Listing.ofStatements`: the instruction lines and the label declarations, apart.
* `Listing.label?`: the index bound to a name.
-/

namespace Ostinato

open Text

/-! ### Positions -/

/-- A range of bytes of a text in UTF-8, without the byte at `stop`. -/
structure Span where
  start : Nat
  stop : Nat
deriving DecidableEq, Repr

/-! ### Statements -/

/-- What one line of a program text says. -/
structure Statement where
  text : List Char
  /-- The number of the line, counted from one. -/
  number : Nat
  span : Span
deriving DecidableEq

/-- A line without the carriage return at its end. -/
def withoutReturn (line : List Char) : List Char :=
  if line.getLast? = some '\r' then line.dropLast else line

/-- The part of a line before its comment. -/
def code (line : List Char) : List Char :=
  (withoutReturn line).takeWhile (· ≠ ';')

/-- The blanks in front of the code. -/
def indent (line : List Char) : List Char :=
  (code line).takeWhile isBlank

/-- The code without the blanks around it. -/
def content (line : List Char) : List Char :=
  trimEnd isBlank ((code line).dropWhile isBlank)

/-- What the line with the given number says, if its first byte is at `start`. -/
def Statement.ofLine? (number start : Nat) (line : List Char) : Option Statement :=
  if (content line).isEmpty then none
  else
    let first := start + byteCount (indent line)
    some ⟨content line, number, first, first + byteCount (content line)⟩

/-- What the given lines say, where the first one has the given number and starts at the given byte. -/
def statementsFrom (number start : Nat) : List (List Char) → List Statement
  | [] => []
  | line :: lines =>
    (Statement.ofLine? number start line).toList ++ statementsFrom (number + 1) (start + byteCount line + 1) lines

/-- What the lines of a text say, in order. -/
def statements (source : String) : List Statement :=
  statementsFrom 1 0 (linesOf source.toList)

/-- The name that a label declaration declares, which may be empty. -/
def Statement.label? (s : Statement) : Option (List Char) :=
  match s.text with
  | ':' :: name => some name
  | _ => none

/-! ### Listings -/

/-- An instruction of a program text. -/
structure Line where
  text : String
  number : Nat
  span : Span
deriving DecidableEq

/-- A label declaration of a program text. -/
structure Declaration where
  name : String
  /-- The index of the instruction that follows. -/
  target : Nat
  number : Nat
  span : Span
deriving DecidableEq

/-- The instructions of a program text and its label declarations, each in the order of the text. -/
structure Listing where
  lines : List Line := []
  declarations : List Declaration := []
deriving DecidableEq

namespace Listing

/-- Collects statements that `index` instructions stand in front of. -/
def collect (index : Nat) : List Statement → Listing
  | [] => {}
  | s :: rest =>
    match s.label? with
    | some name =>
      let listing := collect index rest
      { listing with declarations := ⟨String.ofList name, index, s.number, s.span⟩ :: listing.declarations }
    | none =>
      let listing := collect (index + 1) rest
      { listing with lines := ⟨String.ofList s.text, s.number, s.span⟩ :: listing.lines }

def ofStatements (statements : List Statement) : Listing :=
  collect 0 statements

def parse (source : String) : Listing :=
  ofStatements (statements source)

/-- The last declaration of a name. -/
def declaration? (listing : Listing) (name : String) : Option Declaration :=
  listing.declarations.reverse.find? (·.name == name)

/-- The index of the instruction that a name is bound to. -/
def label? (listing : Listing) (name : String) : Option Nat :=
  (listing.declaration? name).map (·.target)

/-- The declared names in the order of their characters, each once, with the indices that they are bound to. -/
def labels (listing : Listing) : List (String × Nat) :=
  let names := (listing.declarations.map (·.name)).mergeSort (· ≤ ·)
  names.eraseReps.filterMap fun name => (listing.label? name).map (name, ·)

end Listing

end Ostinato
