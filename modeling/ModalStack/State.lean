/-
# The state of the engine

The stack belongs to the host.  The engine keeps its belief about it, the depth and the
cursor, next to the mode, the half-typed command, the registers' contents as the host
reported them, and the memory of the last search and the last change.
-/
import ModalStack.Command
import ModalStack.Table
import ModalStack.Text.Cluster

namespace ModalStack

/-- The register that is meant when none is named. -/
def unnamedRegister : String := "\""

/-- What an engine is given besides its keymaps, and every action can look up besides the state. -/
structure Settings where
  /-- How many items a rotation takes without a count. -/
  rotateCount : Nat := 3
  /-- What cuts a search pattern into clusters.  It is no part of the engine. -/
  segmentation : Text.Segmentation := .unicode

/-- Everything the engine knows. -/
structure State where
  mode : Mode := .normal
  /-- The keys of a command that is not complete, joined to one text. -/
  buffer : String := ""
  /-- The same keys, one by one. -/
  keys : List String := []
  /-- A count given outside the buffer, for a command that has none of its own. -/
  pendingCount : Option Nat := none
  /-- The register of the last command that used one. -/
  activeRegister : Option String := none
  lastCommand : Option String := none
  /-- Counts the executed commands. -/
  tick : Nat := 0
  /-- The cursor. -/
  position : Nat := 1
  depth : Nat := 0
  selection : Option Selection := none
  registers : Table String (List String) := .empty
  /-- The pattern being typed, or the one that was searched last. -/
  searchPattern : Option String := none
  searchDirection : Option Direction := none
  lastSearch : Option Query := none
  lastChange : Option Change := none
  deriving DecidableEq

namespace State

/-- The state with a new depth, the cursor and the selection brought into its bounds. -/
def withDepth (s : State) (depth : Nat) : State :=
  { s with
    depth := depth
    position := clamp s.position depth
    selection := s.selection.map (·.clamp depth) }

/-- Drops a half-typed command. -/
def clearBuffer (s : State) : State := { s with buffer := "", keys := [] }

/-- The register of the last command that used one, or else the unnamed one. -/
def registerOrDefault (s : State) : String := s.activeRegister.getD unnamedRegister

/-- The contents of a register. -/
def register (s : State) (name : String) : Option (List String) := s.registers.get? name

end State

end ModalStack
