import Ostinato.Source.Assembly
import Ostinato.Text.Width

/-!
# Reports

A fault is shown with the line that it was found in: a headline, a frame with the position, the line itself, a rule
under the faulty characters and an arrow from the middle of the rule.  A terminal ends lines at more characters than
a program text does; a fault that goes on for several of its lines is shown with a bracket instead of a rule.  A
report is a list of lines of inked pieces, so that the plain and the coloured form have the same layout.

* `Diagnostic.report`: the lines of a report.
* `plain`, `coloured`: a report as text.
-/

namespace Ostinato

open Text

/-! ### Inked text -/

/-- What a piece of a report belongs to, which decides its colour. -/
inductive Ink where
  /-- The headline and all that marks the faulty characters. -/
  | warning
  /-- The frame and the line number. -/
  | frame
  /-- The part of the frame beside the marks. -/
  | margin
  /-- The characters of the line that are not at fault. -/
  | source
  /-- All other text. -/
  | plain
deriving DecidableEq

/-- A piece of text of one colour. -/
structure Piece where
  ink : Ink
  text : String
deriving DecidableEq

/-- The parameters of the terminal command that selects a colour. -/
def Ink.selection? : Ink → Option String
  | warning => some "33"
  | frame => some "38;5;246"
  | margin => some "38;5;240"
  | source => some "38;5;249"
  | plain => none

def Piece.plain (piece : Piece) : String :=
  piece.text

/-- The piece between the terminal commands that select its colour and reset it. -/
def Piece.coloured (piece : Piece) : String :=
  match piece.ink.selection? with
  | none => piece.text
  | some selection => "\x1b[" ++ selection ++ "m" ++ piece.text ++ "\x1b[0m"

/-- Text in the colour of the terminal. -/
def unmarked (text : String) : Piece :=
  ⟨.plain, text⟩

def spaces (count : Nat) : String :=
  String.ofList (List.replicate count ' ')

/-! ### The line that is shown -/

/-- The characters that end a line on a terminal. -/
def endsLine (c : Char) : Bool :=
  c == '\r' || c == '\n' || c == '\x0b' || c == '\x0c' || c == '\u0085' || c == '\u2028' || c == '\u2029'

/-- The lines of a text, each with the characters that end it; a carriage return and a line feed end a line
together. -/
def shownLines : List Char → List (List Char)
  | [] => []
  | c :: rest =>
    let lines := shownLines rest
    if endsLine c && !(c == '\r' && rest.head? == some '\n') then [c] :: lines
    else
      match lines with
      | [] => [[c]]
      | line :: lines => (c :: line) :: lines

/-- A line as it is shown: its number, the byte of the text that it starts at, and its characters, with those that
end it. -/
structure ShownLine where
  number : Nat
  start : Nat
  text : List Char

/-- The line with the byte at `offset`, where the first of the given lines has the given number and starts at the
given byte; the last line has all bytes that follow. -/
def ShownLine.find (offset number start : Nat) : List (List Char) → ShownLine
  | [] => ⟨number, start, []⟩
  | line :: lines =>
    let stop := start + byteCount line
    if offset < stop || lines.isEmpty then ⟨number, start, line⟩ else find offset (number + 1) stop lines

/-- The line of a text with the byte at `offset`. -/
def ShownLine.at (source : String) (offset : Nat) : ShownLine :=
  ShownLine.find offset 1 0 (shownLines source.toList)

/-- The characters of a line without the white space at its end. -/
def ShownLine.visible (line : ShownLine) : List Char :=
  trimEnd isWhiteSpace line.text

/-- The number of characters that the first `bytes` bytes of a text hold. -/
def charactersIn : (bytes : Nat) → List Char → Nat
  | 0, _ => 0
  | _, [] => 0
  | bytes + 1, c :: rest => 1 + charactersIn (bytes + 1 - c.utf8Size) rest

/-- The number of characters of a line in front of the byte at `offset`. -/
def ShownLine.column (line : ShownLine) (offset : Nat) : Nat :=
  charactersIn (offset - line.start) line.text

/-! ### Rows -/

/-- The rows of marks end two characters after the faulty ones. -/
def overhang : Nat := 2

/-- One piece per character of the text. -/
def inked (ink : Ink) (text : List Char) : List Piece :=
  text.map fun c => ⟨ink, c.toString⟩

/-- The widths of the first `count` characters of a line; beyond its end every character is one column wide. -/
def columns (text : List Char) (count : Nat) : List Nat :=
  (List.range count).map fun i => ((text[i]?.map (cell i)).map (·.2)).getD 1

/-- The line itself, with the characters from `first` up to `last` marked. -/
def sourceRow (line : List Char) (first last : Nat) : List Piece :=
  line.zipIdx.flatMap fun (c, i) => inked (if first ≤ i && i < last then .warning else .source) (cell i c).1

/-- The rule under the faulty characters, with a joint under the first column of the middle one. -/
def ruleRow (line : List Char) (first last : Nat) : List Piece :=
  (columns line (last + overhang)).zipIdx.flatMap fun (width, i) =>
    if first ≤ i && i < last then
      inked .warning ((List.replicate width '─').modifyHead fun c => if i = (first + last) / 2 then '┬' else c)
    else inked .plain (List.replicate width ' ')

/-- The arrow from the joint to the word at its right. -/
def arrowRow (line : List Char) (first last : Nat) : List Piece :=
  (columns line (last + overhang)).zipIdx.flatMap fun (width, i) =>
    if i < (first + last) / 2 then inked .plain (List.replicate width ' ')
    else
      inked .warning ((List.replicate width '─').modifyHead fun c => if i = (first + last) / 2 then '╰' else c)

/-! ### Frames -/

/-- What stands in front of a line: its number, in as many columns as the greatest number needs. -/
def numbered (digits number : Nat) : List Piece :=
  let text := toString number
  [unmarked " ", ⟨.frame, spaces (digits - text.length) ++ text ++ " │"⟩, unmarked " "]

/-- What stands in front of a row that is no line. -/
def gutter (digits : Nat) (bar : Char) : List Piece :=
  [unmarked " ", ⟨.margin, spaces (digits + 1) ++ bar.toString⟩, unmarked " "]

/-- The rows on a fault within one line: the line, the rule and the arrow. -/
def inlineRows (digits : Nat) (line : ShownLine) (span : Span) : List (List Piece) :=
  let first := line.column span.start
  let last := line.column span.stop
  [ numbered digits line.number ++ sourceRow line.visible first last,
    gutter digits '│' ++ ruleRow line.visible first last,
    gutter digits '│' ++ arrowRow line.visible first last ++ [unmarked " here"] ]

/-- The rows on a fault that goes on for several lines: its first and its last line, held together by a bracket that
ends in the arrow, with a gap between them if there are others. -/
def bracketRows (digits : Nat) (top bottom : ShownLine) (span : Span) : List (List Piece) :=
  let width := (columns bottom.visible (bottom.text.length + overhang)).foldl (· + ·) 0
  let gap := gutter digits '┆' ++ inked .warning ['┆'] ++ inked .plain [' ', ' ', ' ']
  [numbered digits top.number ++ inked .warning ['╭', '─', '▶', ' '] ++
      sourceRow top.visible (top.column span.start) top.text.length] ++
  (if top.number + 1 < bottom.number then [gap] else []) ++
  [ numbered digits bottom.number ++ inked .warning ['├', '─', '▶', ' '] ++
      sourceRow bottom.visible 0 (bottom.column span.stop),
    gutter digits '│' ++ inked .warning ['│'] ++ inked .plain (List.replicate (width + 3) ' '),
    gutter digits '│' ++ inked .warning ('╰' :: List.replicate (width + 3) '─') ++ [unmarked " here"] ]

/-! ### Reports -/

/-- The lines of the report on a fault of the given text. -/
def Diagnostic.report (source : String) (d : Diagnostic) : List (List Piece) :=
  let top := ShownLine.at source d.span.start
  let bottom := ShownLine.at source (d.span.stop - 1)
  let digits := (toString bottom.number).length
  let indent := unmarked (spaces (digits + 2))
  let place := toString top.number ++ ":" ++ toString (top.column d.span.start + 1)
  [ [⟨.warning, "Warning:"⟩, unmarked (" " ++ d.warning.message)],
    [indent, ⟨.frame, "╭"⟩, ⟨.frame, "─"⟩, ⟨.frame, "["⟩, unmarked (" <unknown>:" ++ place ++ " "), ⟨.frame, "]"⟩],
    [indent, ⟨.frame, "│"⟩] ] ++
  (if top.number = bottom.number then inlineRows digits top d.span else bracketRows digits top bottom d.span) ++
  [ [⟨.frame, String.ofList (List.replicate (digits + 2) '─') ++ "╯"⟩] ]

/-- A report as text, where `paint` decides on the colours; every line ends in a line feed. -/
def reportText (paint : Piece → String) (report : List (List Piece)) : String :=
  String.join (report.map fun row => String.join (row.map paint) ++ "\n")

def reports (paint : Piece → String) (source : String) (diagnostics : List Diagnostic) : String :=
  String.join (diagnostics.map fun d => reportText paint (d.report source))

end Ostinato
