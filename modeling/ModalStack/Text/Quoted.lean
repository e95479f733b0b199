/-
# Quoted text

A text is shown between double quotes.  The quote, the backslash and four control characters
have an escape of two characters; a character that is not visible, or that would extend the
one before it, is shown by its code point, in lowercase hexadecimal between braces; all
others stand for themselves.
-/
import ModalStack.Text.Visible
import ModalStack.Text.Cluster.Kind

namespace ModalStack.Text

/-- A character shown by its code point. -/
def byCodePoint (c : Char) : List Char :=
  ['\\', 'u', '\x7b'] ++ Nat.toDigits 16 c.toNat ++ ['\x7d']

/-- What stands for a character between the quotes. -/
def quotedChar (c : Char) : List Char :=
  if c = '\x00' then ['\\', '0']
  else if c = '\t' then ['\\', 't']
  else if c = '\r' then ['\\', 'r']
  else if c = '\n' then ['\\', 'n']
  else if c = '"' || c = '\\' then ['\\', c]
  else if isVisible c && !inRanges Cluster.extendRanges c then [c]
  else byCodePoint c

/-- The text between double quotes. -/
def quoted (s : String) : String :=
  String.ofList ('"' :: s.toList.flatMap quotedChar ++ ['"'])

end ModalStack.Text
