/-
# Modes

The same key does different things in different modes.
-/

namespace ModalStack

/-- What the engine takes keys for. -/
inductive Mode where
  /-- Motions and operators. -/
  | normal
  /-- The host edits an item; the engine waits for the escape. -/
  | insert
  /-- Motions extend a selection. -/
  | visual
  /-- The host's command line has the keys. -/
  | command
  /-- Keys are typed into a search pattern. -/
  | search
  deriving DecidableEq

end ModalStack
