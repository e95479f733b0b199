/-
# Which keys the engine takes

Not every key concerns the engine: in a text field it must be left alone.  The mode decides
first and for good: insert mode and the command line wait for the keys that end them, and a
search takes everything.  Only in normal and visual mode does it matter where the key was
typed.

On the stack all command keys are taken.  A digit is text, and is taken only as long as the
command being typed is a number or may still become a phrase.
-/
import ModalStack.Context
import ModalStack.Key.Category
import ModalStack.Resolution

namespace ModalStack

/-- A digit goes on the command that is being typed. -/
def State.acceptsDigit (s : State) (press : KeyPress) : Bool :=
  match press.code with
  | .char c =>
    c.isDigit && !press.mods.isChord
      && ((bufferBody s.buffer).toList.all Char.isDigit || Phrase.isPending (bufferBody s.buffer))
  | _ => false

/-- The engine takes a key in normal or visual mode. -/
def State.takesIn (s : State) (context : Context) (press : KeyPress) : Bool :=
  match context with
  | .stack => press.category != .text || s.acceptsDigit press
  | .cell => press.category == .escape || press.category == .submit && !press.mods.isEmpty
  | .commandLine | .search => press.category == .escape || press.category == .submit
  | .dialog => press.category == .escape
  | .widget => press.category == .escape || press.category == .leading

/-- The engine takes a key. -/
def State.takes (s : State) (context : Context) (press : KeyPress) : Bool :=
  match s.mode with
  | .insert => press.category == .escape
  | .command => press.category == .escape || press.category == .submit
  | .search => true
  | .normal | .visual => s.takesIn context press

end ModalStack
