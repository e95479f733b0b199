/-
# Operations on the stack

An operation says which positions it touches and what the host is to do with the items there,
and gives the state that the engine holds afterwards.  It never touches items itself.

What an operation touches comes from one of four sources: the selection, a run of items from
the cursor upwards, a range between two positions brought into bounds, or the pair of a swap.
-/
import ModalStack.State

namespace ModalStack

/-- What the host does with the items. -/
inductive Movement where
  | delete
  | copy
  | move
  | swap
  | rotate
  deriving DecidableEq

/-- A movement of items, with the register that they go to or come from. -/
structure Effect where
  movement : Movement
  register : Option String
  deriving DecidableEq

/-- What an operation does. -/
structure Outcome where
  state : State
  /-- The positions it touches, in the order in which it touches them. -/
  affected : List Nat
  effect : Option Effect
  deriving DecidableEq

namespace State

/-! ## 1. What is touched -/

/-- `count` positions from the cursor upwards, as far as the stack goes. -/
def runFromCursor (s : State) (count : Nat) : List Nat :=
  if count = 0 then [] else positionsBetween s.position (min (s.position + (count - 1)) s.depth)

/-- The positions that an operation on `count` items touches: the selected ones if there is
a selection, and otherwise at least one from the cursor upwards. -/
def affectedPositions (s : State) (count : Nat) : List Nat :=
  match s.selection with
  | some sel => positionsBetween sel.low sel.high
  | none => s.runFromCursor (max count 1)

/-- The positions between two ends in either order, brought into bounds. -/
def rangePositions (s : State) (start stop : Nat) : List Nat :=
  if s.depth = 0 then []
  else
    let a := clamp start s.depth
    let b := clamp stop s.depth
    positionsBetween (min a b) (max a b)

/-- How many items an operation on `count` items means to touch. -/
def intendedSize (s : State) (count : Nat) : Nat :=
  match s.selection with
  | some sel => sel.span
  | none => max count 1

/-- Without a selection it is as many items as there are, but at least one. -/
theorem affectedPositions_unselected {s : State} (h : s.selection = none) (count : Nat) :
    s.affectedPositions count =
      positionsBetween s.position (min (s.position + max count 1 - 1) s.depth) := by
  have hmax : 1 ≤ max count 1 := Nat.le_max_right count 1
  simp only [affectedPositions, h, runFromCursor]
  rw [if_neg (by omega), Nat.add_sub_assoc hmax]

theorem rangePositions_eq {s : State} (h : 1 ≤ s.depth) (start stop : Nat) :
    s.rangePositions start stop =
      positionsBetween (min (clamp start s.depth) (clamp stop s.depth))
        (max (clamp start s.depth) (clamp stop s.depth)) := by
  rw [rangePositions, if_neg (by omega)]

/-! ## 2. Deleting and yanking -/

/-- The register that an operation uses. -/
def targetRegister (register : Option String) : String := register.getD unnamedRegister

/-- The state after `removed` items have gone to a register. -/
def afterRemoval (s : State) (removed : Nat) (register : String) : State :=
  { s with
    depth := s.depth - removed
    position := max (min s.position (s.depth - removed)) 1
    selection := none
    activeRegister := some register }

/-- The state after items have been copied to a register, or from it. -/
def afterCopy (s : State) (register : String) : State :=
  { s with selection := none, activeRegister := some register }

/-- Deletes the selection, or `count` items from the cursor upwards. -/
def deleteItems (s : State) (count : Nat) (register : Option String) : Outcome where
  state := s.afterRemoval (s.intendedSize count) (targetRegister register)
  affected := s.affectedPositions count
  effect := some ⟨.delete, some (targetRegister register)⟩

/-- Copies the selection, or `count` items from the cursor upwards. -/
def yankItems (s : State) (count : Nat) (register : Option String) : Outcome where
  state := s.afterCopy (targetRegister register)
  affected := s.affectedPositions count
  effect := some ⟨.copy, some (targetRegister register)⟩

/-- Deletes the items between two positions, in either order. -/
def deleteRange (s : State) (start stop : Nat) (register : Option String) : Outcome where
  state := s.afterRemoval (s.rangePositions start stop).length (targetRegister register)
  affected := s.rangePositions start stop
  effect := some ⟨.delete, some (targetRegister register)⟩

/-- Copies the items between two positions, in either order. -/
def yankRange (s : State) (start stop : Nat) (register : Option String) : Outcome where
  state := s.afterCopy (targetRegister register)
  affected := s.rangePositions start stop
  effect := some ⟨.copy, some (targetRegister register)⟩

/-- Deletes the items from the cursor to a position. -/
def deleteToPosition (s : State) (target : Nat) (register : Option String) : Outcome :=
  s.deleteRange s.position target register

/-- Copies the items from the cursor to a position. -/
def yankToPosition (s : State) (target : Nat) (register : Option String) : Outcome :=
  s.yankRange s.position target register

/-! ## 3. Pasting, swapping, rotating -/

/-- Pastes a register at the cursor, or one position above it.  How deep the stack is then,
the host has to report. -/
def pasteItems (s : State) (register : Option String) (after : Bool) : Outcome where
  state := s.afterCopy (targetRegister register)
  affected := [if after then s.position else wrap (s.position + 1)]
  effect := some ⟨.move, some (targetRegister register)⟩

/-- The item under the cursor and its neighbour above, or below if it is the top one. -/
def swapPositions (s : State) : List Nat :=
  if s.depth < 2 then []
  else if s.depth ≤ s.position then [s.depth, s.depth - 1]
  else [s.position, s.position + 1]

/-- A movement without a register, unless nothing is touched. -/
def effectOn (affected : List Nat) (movement : Movement) : Option Effect :=
  if affected.isEmpty then none else some ⟨movement, none⟩

/-- Swaps the item under the cursor with its neighbour. -/
def swapItems (s : State) : Outcome where
  state := s
  affected := s.swapPositions
  effect := effectOn s.swapPositions .swap

/-- The positions of a rotation: a run from the cursor, if it has two items. -/
def rotatePositions (s : State) (count : Nat) : List Nat :=
  if (s.runFromCursor count).length < 2 then [] else s.runFromCursor count

/-- Rotates `count` items from the cursor upwards. -/
def rotateItems (s : State) (count : Nat) : Outcome where
  state := s
  affected := s.rotatePositions count
  effect := effectOn (s.rotatePositions count) .rotate

end State

end ModalStack
