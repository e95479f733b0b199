/-
# Keys of a terminal

A terminal knows more keys and more modifiers than the engine.  Keys that the engine has no
word for are dropped, and of the modifiers only control and alt are passed on: shift shows in
the character already.
-/
import ModalStack.Key

namespace ModalStack

/-- A key as a terminal reports it. -/
inductive TerminalKey where
  /-- One that the engine knows too. -/
  | known (code : KeyCode)
  | backTab
  | insert
  | null
  | capsLock
  | menu
  /-- A key that controls a player. -/
  | play
  /-- The shift key itself. -/
  | leftShift
  deriving DecidableEq

/-- A key press as a terminal reports it. -/
structure TerminalPress where
  key : TerminalKey
  mods : Modifiers := {}
  superKey : Bool := false
  hyperKey : Bool := false
  deriving DecidableEq

/-- The press as the engine sees it. -/
def TerminalPress.toPress? (press : TerminalPress) : Option KeyPress :=
  match press.key with
  | .known code => some { code := code, mods := { ctrl := press.mods.ctrl, alt := press.mods.alt } }
  | _ => none

end ModalStack
