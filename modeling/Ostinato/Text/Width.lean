import Ostinato.Text.Blank
import Ostinato.Text.Property

/-!
# Width of characters on a terminal

The number of columns that a terminal gives to a character: none to marks that combine with another character, two to
wide characters, one to the rest, controls included.  Two Khmer letters have widths of their own.  A tab advances to a
multiple of `tabWidth`, and any other white space takes one column.
-/

namespace Ostinato.Text

def tabWidth : Nat := 4

/-- The columns of a character that is not white space. -/
def glyphWidth (c : Char) : Nat :=
  if c.toNat < 0xa0 then 1
  else if c = '\u17a4' then 2
  else if c = '\u17d8' then 3
  else if inRanges spaceless c then 0
  else if inRanges wide c then 2
  else 1

/-- What is drawn for the character at position `index` of its line, and in how many columns. -/
def cell (index : Nat) (c : Char) : List Char × Nat :=
  if c = '\t' then
    let width := tabWidth - index % tabWidth
    (List.replicate width ' ', width)
  else if isWhiteSpace c then ([' '], 1)
  else ([c], glyphWidth c)

end Ostinato.Text
