/-
# Phrases that are carried out as they stand

Before a phrase is carried out one can check it against the depth of the stack.  Nothing asks for
the check: the operations take any positions, and bring them into bounds.  So the check is of use
only if it tells when that changes nothing, and this is what it does.

A position passes the check exactly if bringing it into bounds leaves it where it is
(`clamp_eq_self_iff`).  A range passes exactly if both its ends do, and that can be seen from what
is deleted or copied: the run between the ends in bounds is the run between the ends as typed only
if neither was moved (`State.rangePositions_eq_iff`).  The cursor goes to a position by another way,
through numbers with a sign and, in visual mode, by the difference; on a stack that such numbers can
count the cursor ends at the position brought into bounds all the same.
-/
import ModalStack.Action.Library
import ModalStack.Phrase.Bounds

namespace ModalStack

/-! ## 1. The check -/

/-- Bringing a position into bounds leaves it exactly if an item has it. -/
theorem clamp_eq_self_iff {position depth : Nat} (hd : 1 ≤ depth) :
    clamp position depth = position ↔ 1 ≤ position ∧ position ≤ depth := by
  simp only [clamp]
  omega

namespace Phrase

variable {position depth start stop : Nat}

theorem checkPosition_eq_ok_iff :
    checkPosition position depth = .ok () ↔ 1 ≤ position ∧ position ≤ depth := by
  unfold checkPosition
  split
  · rename_i h
    exact iff_of_true rfl h
  · rename_i h
    exact iff_of_false (by simp) h

theorem check_position_iff (operator : String) :
    (Phrase.mk operator (.position position)).check depth = .ok () ↔
      1 ≤ position ∧ position ≤ depth := checkPosition_eq_ok_iff

/-- Which end is looked at first makes no difference. -/
theorem check_range_iff (operator : String) :
    (Phrase.mk operator (.range start stop)).check depth = .ok () ↔
      (1 ≤ start ∧ start ≤ depth) ∧ (1 ≤ stop ∧ stop ≤ depth) := by
  rw [← checkPosition_eq_ok_iff, ← checkPosition_eq_ok_iff]
  simp only [check]
  cases checkPosition start depth with
  | ok _ => exact (and_iff_right rfl).symm
  | error _ => exact iff_of_false (by simp) (by simp)

end Phrase

namespace State

variable {s : State}

/-! ## 2. What the operations make of it -/

/-- A run between two ends in bounds is the one between the ends as they were given exactly if
both were in bounds, in either order. -/
theorem rangePositions_eq_iff (hd : 1 ≤ s.depth) (start stop : Nat) :
    s.rangePositions start stop = positionsBetween (min start stop) (max start stop) ↔
      (1 ≤ start ∧ start ≤ s.depth) ∧ (1 ≤ stop ∧ stop ≤ s.depth) := by
  rw [rangePositions_eq hd, positionsBetween_inj (by omega)]
  simp only [clamp]
  omega

/-- The cursor goes to the position of a phrase, brought into bounds, in every mode. -/
theorem gotoPosition_position (hp : s.position ≤ maxSigned) (hd : s.depth ≤ maxSigned)
    (target : Nat) (count : Option Nat) (register : Option String) (settings : Settings) :
    ((Action.gotoPosition
      { state := s
        count := count
        register := register
        operand := some (.position target)
        settings := settings }).after s).position = clamp target s.depth :=
  jumpTo_signed hp hd target

/-- **The check tells what is carried out as it stands.**  The cursor stands on a stack with items,
of a depth below `2 ^ 63`, in any mode.  A range passes the check exactly if deleting it touches the
positions between its ends and no others, in whichever order they are given, and the same for
copying it.  A position passes exactly if the cursor, sent there, arrives at it, and exactly if
deleting or copying up to it touches the positions between it and the cursor. -/
theorem check_iff_unclipped (hd₁ : 1 ≤ s.depth) (hd₂ : s.depth ≤ maxSigned)
    (hp₁ : 1 ≤ s.position) (hp₂ : s.position ≤ s.depth) (operator : String)
    (register : Option String) (count : Option Nat) (settings : Settings) :
    (∀ start stop : Nat,
      ((Phrase.mk operator (.range start stop)).check s.depth = .ok () ↔
        (s.deleteRange start stop register).affected
          = positionsBetween (min start stop) (max start stop)) ∧
      ((Phrase.mk operator (.range start stop)).check s.depth = .ok () ↔
        (s.yankRange start stop register).affected
          = positionsBetween (min start stop) (max start stop))) ∧
    ∀ target : Nat,
      ((Phrase.mk operator (.position target)).check s.depth = .ok () ↔
        ((Action.gotoPosition
          { state := s
            count := count
            register := register
            operand := some (.position target)
            settings := settings }).after s).position = target) ∧
      ((Phrase.mk operator (.position target)).check s.depth = .ok () ↔
        (s.deleteToPosition target register).affected
          = positionsBetween (min s.position target) (max s.position target)) ∧
      ((Phrase.mk operator (.position target)).check s.depth = .ok () ↔
        (s.yankToPosition target register).affected
          = positionsBetween (min s.position target) (max s.position target)) := by
  refine ⟨?_, ?_⟩
  · intro start stop
    have hrange : (Phrase.mk operator (.range start stop)).check s.depth = .ok () ↔
        s.rangePositions start stop = positionsBetween (min start stop) (max start stop) := by
      rw [Phrase.check_range_iff, rangePositions_eq_iff hd₁]
    exact ⟨hrange, hrange⟩
  · intro target
    have hspan : (Phrase.mk operator (.position target)).check s.depth = .ok () ↔
        s.rangePositions s.position target
          = positionsBetween (min s.position target) (max s.position target) := by
      rw [Phrase.check_position_iff, rangePositions_eq_iff hd₁]
      -- the other end is the cursor, which is in bounds
      exact (and_iff_right ⟨hp₁, hp₂⟩).symm
    refine ⟨?_, hspan, hspan⟩
    rw [gotoPosition_position (Nat.le_trans hp₂ hd₂) hd₂, Phrase.check_position_iff,
      clamp_eq_self_iff hd₁]

/-- Three items of a stack of five are selected, upwards from position 1.  The range from 5 down to
2 passes and is what is deleted.  The range from 0 to 2 does not pass, and neither does a position
beyond the signed range. -/
theorem check_iff_unclipped_selected :
    let s : State :=
      { mode := .visual, position := 3, depth := 5, selection := some ⟨1, 3⟩ }
    (1 ≤ s.depth ∧ s.depth ≤ maxSigned ∧ 1 ≤ s.position ∧ s.position ≤ s.depth) ∧
      ((Phrase.mk "d" (.range 5 2)).check s.depth = .ok () ∧
        (s.deleteRange 5 2 none).affected = positionsBetween 2 5) ∧
      ((Phrase.mk "d" (.range 0 2)).check s.depth = .error (.outOfRange 0 5) ∧
        (s.yankRange 0 2 none).affected ≠ positionsBetween 0 2) ∧
      ((Phrase.mk "d" (.position maxPosition)).check s.depth
          = .error (.outOfRange maxPosition 5) ∧
        ((Action.gotoPosition
          { state := s
            count := none
            register := none
            operand := some (.position maxPosition)
            settings := {} }).after s).position ≠ maxPosition) := by
  intro s
  have hbounds : 1 ≤ s.depth ∧ s.depth ≤ maxSigned ∧ 1 ≤ s.position ∧ s.position ≤ s.depth := by
    decide
  obtain ⟨hd₁, hd₂, hp₁, hp₂⟩ := hbounds
  obtain ⟨hrange, htarget⟩ := check_iff_unclipped hd₁ hd₂ hp₁ hp₂ "d" none none {}
  have hpasses : (Phrase.mk "d" (.range 5 2)).check s.depth = .ok () := rfl
  have hfails : (Phrase.mk "d" (.range 0 2)).check s.depth = .error (.outOfRange 0 5) := rfl
  have hbeyond : (Phrase.mk "d" (.position maxPosition)).check s.depth
      = .error (.outOfRange maxPosition 5) := rfl
  refine ⟨⟨hd₁, hd₂, hp₁, hp₂⟩, ⟨hpasses, (hrange 5 2).1.mp hpasses⟩, ⟨hfails, ?_⟩, hbeyond, ?_⟩
  · intro heq
    have haccepted := (hrange 0 2).2.mpr heq
    rw [hfails] at haccepted
    exact absurd haccepted (by simp)
  · intro heq
    have haccepted := (htarget maxPosition).1.mpr heq
    rw [hbeyond] at haccepted
    exact absurd haccepted (by simp)

end State

end ModalStack
