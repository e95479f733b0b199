/-
# Commands

A command is what the engine tells its listeners: a wish that the host carries out on its
items, or news of the engine's own state.  The engine never sees the items.  It names them
by position, and the registers they go to and come from by name.
-/
import ModalStack.Mode
import ModalStack.Selection

namespace ModalStack

/-- Which way a search looks. -/
inductive Direction where
  | forward
  | backward
  deriving DecidableEq

/-- A search: what to look for, and which way. -/
structure Query where
  pattern : String
  direction : Direction
  deriving DecidableEq

/-- A change as it was typed, for repeating it. -/
structure Change where
  /-- The keys, without a register prefix. -/
  command : String
  count : Option Nat
  register : Option String
  deriving DecidableEq

/-- What the engine tells its listeners.  Positions count from 1. -/
inductive Command where
  | moveToPosition (position : Nat)
  | moveRelative (offset : Int)
  | moveToTop
  | moveToBottom
  /-- Move to the item that the host knows by this name. -/
  | moveToNamed (name : String)
  | deleteItems (positions : List Nat) (register : String)
  | yankItems (positions : List Nat) (register : String)
  | pasteItems (register : String) (position count : Nat)
  | swapItems (positions : List Nat)
  | rotateItems (positions : List Nat)
  | deleteToPosition (positions : List Nat) (target : Nat) (register : String)
  | yankToPosition (positions : List Nat) (target : Nat) (register : String)
  /-- Open a new item next to the position, and edit it. -/
  | openItem (position : Nat) (above : Bool)
  /-- Replace the items, and edit them. -/
  | changeItems (positions : List Nat) (register : String)
  | search (query : Query)
  | nextMatch (reverse : Bool)
  | dotRepeat (change : Change)
  | switchWorkspace (name : String)
  | listWorkspaces
  | createWorkspace (name : String)
  | modeChange (mode : Mode)
  | bufferUpdate (buffer : String)
  | selectionChange (selection : Option Selection)
  deriving DecidableEq

end ModalStack
