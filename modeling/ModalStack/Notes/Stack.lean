/-
# A stack of notes

A host of the engine: the items are short texts, the one at position 1 first.  Every command
that concerns items is carried out here, with registers of the host's own.
-/
import ModalStack.Command
import ModalStack.State

namespace ModalStack

/-- Notes, and the registers they are deleted and copied to. -/
structure NoteStack where
  items : List String
  registers : Table String (List String)
  deriving DecidableEq

namespace NoteStack

/-- A stack of these notes, with empty registers. -/
def ofItems (items : List String) : NoteStack := ⟨items, .empty⟩

/-! ## 1. Lists by position -/

/-- The items at these positions, as far as there are such items. -/
def take (s : NoteStack) (positions : List Nat) : List String :=
  positions.filterMap fun p => s.items[p - 1]?

/-- A list without the item at a position. -/
def eraseAt (items : List String) (position : Nat) : List String := items.eraseIdx (position - 1)

/-- The stack without the items at these positions.  The highest goes first, so that none
moves before its turn. -/
def remove (s : NoteStack) (positions : List Nat) : List String :=
  (positions.mergeSort (· ≤ ·)).reverse.foldl eraseAt s.items

/-- The same items, written `count` times. -/
def repeated (content : List String) (count : Nat) : List String :=
  if content.isEmpty then [] else (List.replicate count content).flatten

/-- A list with a block put in at an index, or at the end if the list is too short. -/
def insertBlock (items : List String) (index : Nat) (block : List String) : List String :=
  items.take index ++ block ++ items.drop index

/-- A list with the items at two positions exchanged. -/
def swapAt (items : List String) (a b : Nat) : List String :=
  match items[a - 1]?, items[b - 1]? with
  | some x, some y => (items.set (a - 1) y).set (b - 1) x
  | _, _ => items

/-- The last item goes to the front. -/
def lastToFront (items : List String) : List String :=
  items.drop (items.length - 1) ++ items.take (items.length - 1)

/-- A list with the items from `low` to `high` rotated: the highest becomes the lowest. -/
def rotateBetween (items : List String) (low high : Nat) : List String :=
  items.take (low - 1) ++ lastToFront ((items.take high).drop (low - 1)) ++ items.drop high

/-! ## 2. Commands -/

/-- Stores items in a register, and in the unnamed one as well. -/
def store (s : NoteStack) (register : String) (content : List String) : NoteStack :=
  { s with registers := (s.registers.insert register content).insert unnamedRegister content }

/-- Deletes the items at these positions, and stores them. -/
def delete (s : NoteStack) (positions : List Nat) (register : String) : NoteStack :=
  { s.store register (s.take positions) with items := s.remove positions }

/-- Stores the items at these positions. -/
def yank (s : NoteStack) (positions : List Nat) (register : String) : NoteStack :=
  s.store register (s.take positions)

/-- Puts in what a register holds, `count` times. -/
def paste (s : NoteStack) (register : String) (position count : Nat) : NoteStack :=
  { s with
    items := insertBlock s.items position
      (repeated ((s.registers.get? register).getD []) count) }

/-- Where a new item goes. -/
def openIndex (position : Nat) (above : Bool) : Nat := if above then position else position - 1

/-- Carries out a command. -/
def apply (s : NoteStack) : Command → NoteStack
  | .deleteItems positions register => s.delete positions register
  | .deleteToPosition positions _ register => s.delete positions register
  | .yankItems positions register => s.yank positions register
  | .yankToPosition positions _ register => s.yank positions register
  | .pasteItems register position count => s.paste register position count
  | .swapItems [a, b] => { s with items := swapAt s.items a b }
  | .rotateItems positions =>
    match positions.head?, positions.getLast? with
    | some low, some high => { s with items := rotateBetween s.items low high }
    | _, _ => s
  | .openItem position above =>
    { s with items := insertBlock s.items (openIndex position above) [""] }
  | .changeItems positions _ =>
    { s with items := positions.foldl (fun items p => items.set (p - 1) "") s.items }
  | _ => s

/-- The command may change how many items there are. -/
def resizes : Command → Bool
  | .deleteItems _ _ | .deleteToPosition _ _ _ | .pasteItems _ _ _ | .openItem _ _ => true
  | _ => false

end NoteStack

end ModalStack
