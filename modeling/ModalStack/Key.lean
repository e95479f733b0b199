/-
# Keys

A key press is a key together with the modifiers held.  Hosts deliver characters as typed,
so the key of a capital letter is that letter and need not come with shift.  Text that was
composed elsewhere arrives as a received character.
-/

namespace ModalStack

/-- A key on any keyboard. -/
inductive KeyCode where
  | char (c : Char)
  | escape
  | enter
  | backspace
  | tab
  | delete
  | up
  | down
  | left
  | right
  | home
  | endKey
  | pageUp
  | pageDown
  /-- A numbered function key. -/
  | function (number : Nat)
  deriving DecidableEq

/-- The modifiers held with a key. -/
structure Modifiers where
  shift : Bool := false
  ctrl : Bool := false
  alt : Bool := false
  metaKey : Bool := false
  deriving DecidableEq

/-- Some modifier is held that makes a chord of the key: any but shift. -/
def Modifiers.isChord (m : Modifiers) : Bool := m.ctrl || m.alt || m.metaKey

/-- No modifier is held. -/
def Modifiers.isEmpty (m : Modifiers) : Bool := !m.shift && !m.isChord

/-- A key and the modifiers held with it. -/
structure KeyPress where
  code : KeyCode
  mods : Modifiers := {}
  deriving DecidableEq

/-- What a host delivers. -/
inductive Input where
  | key (press : KeyPress)
  /-- A character that was composed before it arrived. -/
  | received (c : Char)
  deriving DecidableEq

/-- The control characters: those below the space, and the 33 from delete on. -/
def isControl (c : Char) : Bool := c.toNat < 32 || (127 ≤ c.toNat && c.toNat < 160)

/-- The character that a press would type. -/
def KeyPress.printable (press : KeyPress) : Option Char :=
  match press.code with
  | .char c => if press.mods.isChord || isControl c then none else some c
  | _ => none

/-- The opening bracket with control, which terminals send for the escape key. -/
def KeyPress.isControlBracket (press : KeyPress) : Bool :=
  press.code == .char '[' && press.mods.ctrl

/-- The key press that an input amounts to.  A received character is one without
modifiers. -/
def Input.press : Input → KeyPress
  | .key press => press
  | .received c => { code := .char c }

end ModalStack
