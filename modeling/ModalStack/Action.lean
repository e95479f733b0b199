/-
# Actions

An action is a named function from everything that a command can see, its invocation, to what
it does, its reaction: perhaps a new state, and perhaps a command for the listeners.  A
reaction without a state leaves the state as it is.
-/
import ModalStack.Phrase
import ModalStack.State

namespace ModalStack

/-- Everything an action sees when it runs. -/
structure Invocation where
  state : State
  /-- The count that was typed or, failing that, set before. -/
  count : Option Nat
  /-- The register named for this command alone. -/
  register : Option String
  /-- The operand of the phrase, if a phrase was typed. -/
  operand : Option Operand
  settings : Settings

/-- How often: once, unless a count says otherwise. -/
def Invocation.times (i : Invocation) : Nat := i.count.getD 1

/-- What an action does. -/
structure Reaction where
  /-- The new state, or none to keep the old one. -/
  state : Option State := none
  command : Option Command := none
  deriving DecidableEq

namespace Reaction

/-- Nothing at all. -/
def nothing : Reaction := {}

/-- A new state and no command. -/
def move (s : State) : Reaction := { state := some s }

/-- A new state and a command. -/
def emit (s : State) (command : Command) : Reaction := { state := some s, command := some command }

/-- A command, perhaps, and the state as it was. -/
def report (command : Option Command) : Reaction := { command := command }

/-- The state after a reaction to `s`. -/
def after (reaction : Reaction) (s : State) : State := reaction.state.getD s

end Reaction

/-- A named function that keys can be bound to. -/
structure Action where
  name : String
  run : Invocation → Reaction

end ModalStack
