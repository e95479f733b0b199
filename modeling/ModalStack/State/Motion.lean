/-
# Motions

A motion computes a target and brings it into bounds.  In visual mode the head of the
selection goes with the cursor; in any other mode a motion drops the selection.
-/
import ModalStack.State

namespace ModalStack.State

/-- The cursor goes to a position, and no selection remains. -/
def moveTo (s : State) (position : Int) : State :=
  { s with position := clampSigned position s.depth, selection := none }

/-- The selection that goes with a motion to `target`. -/
def selectionTowards (s : State) (target : Nat) : Option Selection :=
  match s.mode with
  | .visual =>
    some { anchor := (s.selection.map Selection.anchor).getD s.position, head := target }
  | _ => none

/-- The cursor moves up by `offset`, or down if it is negative. -/
def moveBy (s : State) (offset : Int) : State :=
  let target := clampSigned (addSaturating (signedView s.position) offset) s.depth
  { s with position := target, selection := s.selectionTowards target }

/-- The cursor moves to a position by the difference, so that a selection goes with it. -/
def extendTo (s : State) (position : Int) : State :=
  s.moveBy (addSaturating position (-signedView s.position))

/-- The cursor goes to a position, with the selection in visual mode. -/
def jumpTo (s : State) (position : Int) : State :=
  match s.mode with
  | .visual => s.extendTo position
  | _ => s.moveTo position

/-! Motions change the cursor and the selection, and nothing else. -/

section

variable (s : State) (position offset : Int)

-- The target is made a variable before the two sides are compared: computing it would count
-- through all numbers of 64 bits.
theorem moveBy_eq : s.moveBy offset =
    { s with
      position := (s.moveBy offset).position
      selection := (s.moveBy offset).selection } := by
  unfold moveBy
  generalize clampSigned (addSaturating (signedView s.position) offset) s.depth = target
  rfl

theorem moveBy_mode : (s.moveBy offset).mode = s.mode := by rw [moveBy_eq]

theorem moveBy_depth : (s.moveBy offset).depth = s.depth := by rw [moveBy_eq]

theorem moveBy_position : (s.moveBy offset).position =
    clampSigned (addSaturating (signedView s.position) offset) s.depth := by
  unfold moveBy
  generalize clampSigned (addSaturating (signedView s.position) offset) s.depth = target
  rfl

theorem moveBy_selection :
    (s.moveBy offset).selection = s.selectionTowards (s.moveBy offset).position := by
  unfold moveBy
  generalize clampSigned (addSaturating (signedView s.position) offset) s.depth = target
  rfl

theorem jumpTo_eq : s.jumpTo position =
    { s with
      position := (s.jumpTo position).position
      selection := (s.jumpTo position).selection } := by
  unfold jumpTo
  split
  · exact moveBy_eq s _
  · rfl

theorem jumpTo_depth : (s.jumpTo position).depth = s.depth := by rw [jumpTo_eq]

variable {s position}

/-- In visual mode the anchor stays where it is. -/
theorem moveBy_selection_of_visual {anchor head : Nat} (hm : s.mode = .visual)
    (hsel : s.selection = some ⟨anchor, head⟩) :
    (s.moveBy offset).selection = some ⟨anchor, (s.moveBy offset).position⟩ := by
  simp only [moveBy_selection, selectionTowards, hm, hsel, Option.map_some, Option.getD_some]

/-- In visual mode too a jump ends at its target, brought into bounds. -/
theorem jumpTo_position (hs : s.position ≤ maxSigned) (h₁ : minSigned ≤ position)
    (h₂ : position ≤ maxSigned) :
    (s.jumpTo position).position = clampSigned position s.depth := by
  unfold jumpTo
  split
  · unfold extendTo
    rw [moveBy_position, signedView_natCast hs, clampSigned_addSaturating hs h₁ h₂]
  · rfl

/-- A jump to a typed position ends there, or at the end of the stack. -/
theorem jumpTo_signed (hs : s.position ≤ maxSigned) (hd : s.depth ≤ maxSigned) (target : Nat) :
    (s.jumpTo (signed target)).position = clamp target s.depth := by
  have h₁ : minSigned ≤ signed target := by
    simp only [minSigned, signed]
    omega
  have h₂ : signed target ≤ maxSigned := by
    simp only [signed]
    omega
  rw [jumpTo_position hs h₁ h₂, clampSigned_signed hd]

/-- Counting up stops at the top. -/
theorem moveBy_up (h₁ : 1 ≤ s.position) (h₂ : s.position ≤ s.depth) (h₃ : s.depth ≤ maxSigned)
    (count : Nat) : (s.moveBy count).position = min (s.position + count) s.depth := by
  rw [moveBy_position, signedView_natCast (Nat.le_trans h₂ h₃)]
  simp only [clampSigned, addSaturating, minSigned, maxSigned] at *
  omega

/-- Counting down stops at position 1. -/
theorem moveBy_down (h₁ : 1 ≤ s.position) (h₂ : s.position ≤ s.depth) (h₃ : s.depth ≤ maxSigned)
    (count : Nat) : (s.moveBy (-count)).position = max (s.position - count) 1 := by
  rw [moveBy_position, signedView_natCast (Nat.le_trans h₂ h₃)]
  simp only [clampSigned, addSaturating, minSigned, maxSigned] at *
  omega

end

/-- Visual mode begins, with the item under the cursor selected. -/
def enterVisual (s : State) : State :=
  { s with mode := .visual, selection := some (.single s.position) }

/-- Visual mode ends, and nothing is selected. -/
def exitVisual (s : State) : State := { s with mode := .normal, selection := none }

end ModalStack.State
