/-
# Key tokens cut by offsets

Tokens are cut off a list of characters, which cannot go wrong: every cut lies between two
characters, and something is always taken.  A reader that keeps offsets in bytes has no such
assurance.  It looks at single bytes for the modifier marks, two at a time, and it cuts the text
where it then stands.  Here the tokens are cut once more as such a reader does it, and each step is
checked: the text must have the byte that is looked at, every cut must lie between characters, and
every token must take the reader forward.
-/
import ModalStack.Key.Token
import ModalStack.Text.Bytes

namespace ModalStack

open Text

/-- The offset behind the modifier marks that begin at an offset.  A mark is passed over only if
something follows it. -/
def skipMarks? (cs : List Char) (cursor : Nat) : Except OffsetFault Nat :=
  if cursor + 2 < byteSize cs then do
    let letter ← byteAt? cs cursor
    if (markLetters.map asciiByte).contains letter then
      let hyphen ← byteAt? cs (cursor + 1)
      if hyphen = asciiByte '-' then skipMarks? cs (cursor + 2) else return cursor
    else return cursor
  else return cursor
termination_by byteSize cs - cursor

/-- How many bytes the group takes that comes next, or else the character. -/
def unitSize (rest : List Char) : Nat :=
  let group := if rest.head? = some '<' then (offsetOf? '>' rest).map (· + 1) else none
  (group.or (rest.head?.map Char.utf8Size)).getD 0

/-- Cuts off the token that begins at an offset, and says where it ends. -/
def cutToken? (cs : List Char) (start : Nat) : Except OffsetFault (List Char × Nat) := do
  let cursor ← skipMarks? cs start
  let (_, rest) ← cut? cs cursor
  let stop := cursor + unitSize rest
  let token ← slice? cs start stop
  return (token, stop)

/-- Cuts off one token after the other, from an offset to the end of the text. -/
def cutFrom? (cs : List Char) (start : Nat) : Except OffsetFault (List (List Char)) :=
  if start < byteSize cs then do
    let (token, stop) ← cutToken? cs start
    if start < stop then
      let tokens ← cutFrom? cs stop
      return token :: tokens
    else .error .stuck
  else return []
termination_by byteSize cs - start

/-- Cuts a text into key tokens. -/
def tokenize? (buffer : String) : Except OffsetFault (List String) := do
  let tokens ← cutFrom? buffer.toList 0
  return tokens.map String.ofList

end ModalStack
