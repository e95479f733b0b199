/-
# Categories of keys

A coarse division of the keys, by which the engine decides whether a key concerns it at all.
Every letter is a command key of some sort; digits, white space and the punctuation that no
command uses are text.
-/
import ModalStack.Key

namespace ModalStack

/-- What sort of key it is. -/
inductive KeyCategory where
  | navigation
  | editing
  /-- Keys that lead elsewhere: chords, function keys, the keys that start a command line, a
  search or a register name. -/
  | leading
  | escape
  | submit
  | text
  deriving DecidableEq

/-- The characters that move the cursor. -/
def navigationChars : List Char := ['h', 'j', 'k', 'l', 'g', 'G', 'n', 'N']

/-- The characters that change something. -/
def editingChars : List Char :=
  ['d', 'D', 'y', 'Y', 'p', 'P', 'x', 'X', 'o', 'O', 'c', 'C', 's', 'S', 'r', 'R', 'u', 'J',
   '.', '+', '-', '*', '<', '>']

/-- The punctuation that leads elsewhere. -/
def leadingChars : List Char := [':', '/', '?', '@', '"', '\'', ',', ';', '&']

/-- The category of a character typed without a chord. -/
def charCategory (c : Char) : KeyCategory :=
  if c ∈ navigationChars then .navigation
  else if c ∈ editingChars then .editing
  else if c ∈ leadingChars ∨ c.isAlpha then .leading
  else .text

/-- The category of a key press. -/
def KeyPress.category (press : KeyPress) : KeyCategory :=
  match press.code with
  | .escape => .escape
  | .enter => .submit
  | .up | .down | .left | .right | .home | .endKey | .pageUp | .pageDown => .navigation
  | .backspace | .delete | .tab => .editing
  | .function _ => .leading
  | .char c =>
    if press.isControlBracket then .escape
    else if press.mods.isChord then .leading
    else charCategory c

end ModalStack
