/-
# Listeners

Parts of a user interface listen to the engine, each under an id of its own.  Every listener
hears every command, in the order in which they first registered, and is told whether it has
the focus.  At most one has it.

What a listener does with a command is its own business.  So a listener is whatever the host
registers (`η`), and delivering a command gives the list of who hears what.
-/
import ModalStack.Command
import ModalStack.Table

namespace ModalStack

/-- The registered listeners, in the order of delivery, and the one with the focus. -/
structure Listeners (η : Type) where
  handlers : Table String η
  focused : Option String

/-- A command as a listener hears it. -/
structure Delivery (η : Type) where
  handler : η
  command : Command
  focused : Bool

/-- No listener has this id. -/
structure UnknownListener where
  id : String
  deriving DecidableEq

/-- The error in words. -/
def UnknownListener.message (e : UnknownListener) : String :=
  "component \x60" ++ e.id ++ "\x60 is not registered"

namespace Listeners

variable {η : Type}

/-- Nobody listens. -/
def empty : Listeners η := ⟨.empty, none⟩

/-- How many listen. -/
def size (l : Listeners η) : Nat := l.handlers.size

/-- Nobody listens. -/
def isEmpty (l : Listeners η) : Bool := l.handlers.isEmpty

/-- Somebody listens under this id. -/
def isRegistered (l : Listeners η) (id : String) : Bool := l.handlers.contains id

/-- The listener with this id has the focus. -/
def hasFocus (l : Listeners η) (id : String) : Bool := l.focused == some id

/-- Registers a listener.  One that takes over an id takes its place in the order too. -/
def register (l : Listeners η) (id : String) (handler : η) : Listeners η :=
  { l with handlers := l.handlers.insert id handler }

/-- Takes the focus from this id, if it has it. -/
def releaseFocus (l : Listeners η) (id : String) : Listeners η :=
  if l.hasFocus id then { l with focused := none } else l

/-- Removes a listener, and the focus with it. -/
def unregister (l : Listeners η) (id : String) : Listeners η :=
  { l.releaseFocus id with handlers := l.handlers.erase id }

/-- Gives the focus to a listener, which must be registered. -/
def requestFocus (l : Listeners η) (id : String) : Except UnknownListener (Listeners η) :=
  if l.isRegistered id then .ok { l with focused := some id } else .error ⟨id⟩

/-- Who hears a command. -/
def deliver (l : Listeners η) (command : Command) : List (Delivery η) :=
  l.handlers.entries.map fun e => ⟨e.2, command, l.hasFocus e.1⟩

/-- Who hears these commands, one after the other. -/
def deliverAll (l : Listeners η) (commands : List Command) : List (Delivery η) :=
  commands.flatMap l.deliver

end Listeners

end ModalStack
