/-!
# Blanks, words and lines

White space is the 25 characters with the Unicode property of that name, a blank is a space or a tab only.  A text is
cut into words at white space and into pieces at a separator.

* `words`: the maximal runs of characters that are not white space.
* `pieces`: what stands between separators, and `linesOf`: what stands between line feeds.
* `trimEnd`: a text without what it ends in.
* `byteCount`: the size of a text in UTF-8.
-/

namespace Ostinato.Text

/-! ### Characters -/

/-- The Unicode property White_Space. -/
def isWhiteSpace (c : Char) : Bool :=
  ('\t' ≤ c && c ≤ '\r') || c == ' ' || c == '\u0085' || c == '\u00a0' || c == '\u1680' ||
    ('\u2000' ≤ c && c ≤ '\u200a') || c == '\u2028' || c == '\u2029' || c == '\u202f' || c == '\u205f' ||
    c == '\u3000'

/-- The blanks that stand around an instruction. -/
def isBlank (c : Char) : Bool :=
  c == ' ' || c == '\t'

/-! ### Cutting -/

/-- The maximal runs of characters that are not white space, with the run that is being read in front. -/
def wordsFrom (run : List Char) : List Char → List (List Char)
  | [] => if run.isEmpty then [] else [run.reverse]
  | c :: rest =>
    if isWhiteSpace c then
      if run.isEmpty then wordsFrom [] rest else run.reverse :: wordsFrom [] rest
    else wordsFrom (c :: run) rest

/-- The maximal runs of characters that are not white space. -/
def words (text : List Char) : List (List Char) :=
  wordsFrom [] text

/-- The pieces between separators; there is always a last one, which may be empty. -/
def pieces (separator : Char) : List Char → List (List Char)
  | [] => [[]]
  | c :: rest =>
    if c = separator then [] :: pieces separator rest
    else
      match pieces separator rest with
      | [] => [[c]]
      | piece :: pieces => (c :: piece) :: pieces

/-- The lines of a text, without the line feeds between them. -/
def linesOf (text : List Char) : List (List Char) :=
  pieces '\n' text

/-- The text without the characters at its end that satisfy `p`. -/
def trimEnd (p : Char → Bool) (text : List Char) : List Char :=
  (text.reverse.dropWhile p).reverse

/-- The number of bytes of the text in UTF-8. -/
def byteCount : List Char → Nat
  | [] => 0
  | c :: rest => c.utf8Size + byteCount rest

end Ostinato.Text
