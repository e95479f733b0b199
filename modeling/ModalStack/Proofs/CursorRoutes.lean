/-
# Ways to a position

The cursor goes to a position directly, or by the difference so that a selection goes with it.  The
difference is computed in 64 bits with a sign, and so is the sum that it is then part of, and both
stop at the ends of that range.  They may well do so, but never where it would show: if the
difference stops short, the position lies far below the bottom, and the sum does so too.  From every
cursor of the signed range all ways end at the same place (`State.ways_agree`), which is the
position of the stack nearest to the one that is asked for (`clampSigned_eq_iff_nearest`).

A position that was typed has no sign.  It is brought into bounds directly, or after its conversion
to a number with a sign, and these agree unless both it and the stack are beyond the signed range
(`clampSigned_signed_iff`).
-/
import ModalStack.State.Motion

namespace ModalStack

/-! ## 1. The nearest position -/

/-- The position is on a stack of this depth, an empty one counting as one of depth 1, and no other
on it is nearer to the target. -/
structure IsNearest (target : Int) (depth position : Nat) : Prop where
  one_le : 1 ≤ position
  le_depth : position ≤ max 1 depth
  nearest : ∀ other : Nat, 1 ≤ other → other ≤ max 1 depth →
    (position - target).natAbs ≤ (other - target).natAbs

variable {target : Int} {depth position : Nat}

/-- **The target of a motion is brought to the nearest position**, which is the only one. -/
theorem clampSigned_eq_iff_nearest (h : target ≤ maxSigned) :
    clampSigned target depth = position ↔ IsNearest target depth position := by
  constructor
  · rintro rfl
    refine ⟨one_le_clampSigned _ _, clampSigned_le _ _, ?_⟩
    intro other h₁ h₂
    simp only [clampSigned, maxSigned] at *
    omega
  · rintro ⟨h₁, h₂, hnearest⟩
    -- two positions as near as each other would lie on either side of the target, which would be
    -- on the stack itself
    have hclamped := hnearest _ (one_le_clampSigned target depth) (clampSigned_le target depth)
    simp only [clampSigned, maxSigned] at *
    omega

/-- **The two ways to bring a typed position into bounds** differ only where both the position and
the stack are beyond the signed range. -/
theorem clampSigned_signed_iff :
    clampSigned (signed position) depth = clamp position depth ↔
      position ≤ maxSigned ∨ depth ≤ maxSigned := by
  simp only [clampSigned, signed, clamp, maxSigned]
  omega

/-! ## 2. The ways of the cursor -/

namespace State

variable {s : State}

theorem moveBy_difference (hs : s.position ≤ maxSigned) (h₁ : minSigned ≤ target)
    (h₂ : target ≤ maxSigned) :
    (s.moveBy (addSaturating target (-s.position))).position = clampSigned target s.depth := by
  rw [moveBy_position, signedView_natCast hs, clampSigned_addSaturating hs h₁ h₂]

/-- **All ways to a position agree.**  Let the cursor be at any position of the signed range, on a
stack of any depth, in any mode.  A target of the signed range is reached by extending the
selection, directly, by the difference that saturates, and by a jump, which takes one of the first
two ways as the mode says.  All of them lead to the position of the stack nearest to it.  A position
that was typed is brought to the same place as such a target and as it is, on every stack that the
signed range can count. -/
theorem ways_agree (hs : s.position ≤ maxSigned) :
    (∀ target : Int, minSigned ≤ target → target ≤ maxSigned →
      (s.extendTo target).position = clampSigned target s.depth ∧
        (s.moveTo target).position = clampSigned target s.depth ∧
        (s.moveBy (addSaturating target (-s.position))).position = clampSigned target s.depth ∧
        (s.jumpTo target).position = clampSigned target s.depth ∧
        IsNearest target s.depth (clampSigned target s.depth)) ∧
      ∀ position depth : Nat, clampSigned (signed position) depth = clamp position depth ↔
        position ≤ maxSigned ∨ depth ≤ maxSigned := by
  refine ⟨?_, fun _ _ => clampSigned_signed_iff⟩
  intro target h₁ h₂
  have hmoved := moveBy_difference hs h₁ h₂
  refine ⟨?_, rfl, hmoved, jumpTo_position hs h₁ h₂, (clampSigned_eq_iff_nearest h₂).mp rfl⟩
  rw [extendTo, signedView_natCast hs]
  exact hmoved

/-- From the last position of the signed range, with a selection and on a stack that is deeper than
that, to both ends of the range: down the difference saturates. -/
theorem ways_agree_at_limits :
    let s : State :=
      { mode := .visual
        position := maxSigned
        depth := maxPosition
        selection := some ⟨7, maxSigned⟩ }
    (s.position ≤ maxSigned ∧ minSigned ≤ minSigned ∧ minSigned ≤ maxSigned ∧
        addSaturating minSigned (-s.position) = minSigned) ∧
      ((s.extendTo minSigned).position = 1 ∧ (s.moveTo minSigned).position = 1) ∧
      ((s.extendTo maxSigned).position = maxSigned ∧ (s.moveTo maxSigned).position = maxSigned) ∧
      clampSigned (signed maxPosition) s.depth ≠ clamp maxPosition s.depth := by
  intro s
  have hs : s.position ≤ maxSigned := Nat.le_refl _
  obtain ⟨hways, hclamps⟩ := ways_agree hs
  obtain ⟨hextend, hmove, -⟩ := hways minSigned (by decide) (by decide)
  obtain ⟨hextend', hmove', -⟩ := hways maxSigned (by decide) (by decide)
  have hbottom : clampSigned minSigned s.depth = 1 := by decide +kernel
  have htop : clampSigned maxSigned s.depth = maxSigned := by decide +kernel
  rw [hbottom] at hextend hmove
  rw [htop] at hextend' hmove'
  refine ⟨⟨hs, by decide, by decide, by decide +kernel⟩, ⟨hextend, hmove⟩, ⟨hextend', hmove'⟩, ?_⟩
  rw [ne_eq, hclamps]
  decide

/-- From a cursor beyond the signed range the difference leads astray. -/
example :
    let s : State := { position := maxSigned + 1, depth := maxPosition }
    (s.extendTo 5).position = 1 ∧ (s.moveTo 5).position = 5 := by
  decide +kernel

end State

end ModalStack
