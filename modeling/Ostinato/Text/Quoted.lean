import Ostinato.Text.Property

/-!
# Quoted text

A text between double quotes, written so that every character of it can be seen: quotes, backslashes and the common
controls after a backslash, whatever is not printable, not displayed or would merge with the character before it as
its code point in hexadecimal.
-/

namespace Ostinato.Text

/-- The code point of a character in lower-case hexadecimal, in braces. -/
def escapeCodePoint (c : Char) : List Char :=
  ['\\', 'u', '\x7b'] ++ Nat.toDigits 16 c.toNat ++ ['\x7d']

/-- Whether a character cannot be seen by itself. -/
def isHidden (c : Char) : Bool :=
  inRanges unprintable c || inRanges ignorable c || inRanges combining c

/-- What stands for a character between quotes. -/
def escape (c : Char) : List Char :=
  if c = '\x00' then ['\\', '0']
  else if c = '\t' then ['\\', 't']
  else if c = '\r' then ['\\', 'r']
  else if c = '\n' then ['\\', 'n']
  else if c = '\\' || c = '"' then ['\\', c]
  else if ' ' ≤ c && c ≤ '~' then [c]
  else if isHidden c then escapeCodePoint c
  else [c]

def quote (text : String) : String :=
  String.ofList ('"' :: text.toList.flatMap escape ++ ['"'])

end Ostinato.Text
