/-
# Positions

Positions on the stack count from 1 at the bottom, and a cursor on an empty stack stands at
1 too.  A position is brought into bounds in two ways:

* `clamp` takes a position that is not negative, as a typed target is;
* `clampSigned` takes the result of a motion, which may lie below the bottom or beyond the
  top.

Positions, depths and the command counter are held in 64 bits, and motions are computed in
64 bits with a sign.  `wrap` and `signedView` say what a sum means when it leaves that range,
`signed` and `addSaturating` are the conversions that stay inside it.
-/

namespace ModalStack

/-! ## 1. Widths -/

/-- How many values 64 bits hold. -/
def wordSize : Nat := 18446744073709551616

/-- The largest position that can be typed. -/
def maxPosition : Nat := 18446744073709551615

/-- The largest count that can be typed or set. -/
def maxCount : Nat := 4294967295

/-- The largest result of a motion. -/
def maxSigned : Nat := 9223372036854775807

/-- The smallest result of a motion. -/
def minSigned : Int := -9223372036854775808

/-- The value that 64 bits keep of a number. -/
def wrap (n : Nat) : Nat := n % wordSize

/-- The value that 64 bits with a sign keep of a number: the one in their range that differs
from it by a multiple of `wordSize`. -/
def signedView (n : Int) : Int := n.bmod wordSize

/-- A position as the target of a motion.  What is too large for a signed number lies beyond
the top anyway. -/
def signed (position : Nat) : Int := min position maxSigned

/-- The sum, or the end of the signed range that it passes. -/
def addSaturating (a b : Int) : Int := max minSigned (min (a + b) maxSigned)

/-! ## 2. Bounds -/

/-- The position in `1, ..., depth` that is nearest, or 1 on an empty stack. -/
def clamp (position depth : Nat) : Nat := max 1 (min position depth)

/-- The position in `1, ..., depth` that is nearest to the result of a motion, or 1 on an
empty stack. -/
def clampSigned (position : Int) (depth : Nat) : Nat :=
  max 1 (min position.toNat (min depth maxSigned))

theorem one_le_clamp (position depth : Nat) : 1 ≤ clamp position depth :=
  Nat.le_max_left _ _

theorem clamp_le (position depth : Nat) : clamp position depth ≤ max 1 depth := by
  simp only [clamp]; omega

theorem clamp_of_mem {position depth : Nat} (h₁ : 1 ≤ position) (h₂ : position ≤ depth) :
    clamp position depth = position := by
  simp only [clamp]; omega

theorem one_le_clampSigned (position : Int) (depth : Nat) : 1 ≤ clampSigned position depth :=
  Nat.le_max_left _ _

theorem clampSigned_le (position : Int) (depth : Nat) :
    clampSigned position depth ≤ max 1 depth := by
  simp only [clampSigned]; omega

theorem clampSigned_le_maxSigned (position : Int) (depth : Nat) :
    clampSigned position depth ≤ maxSigned := by
  simp only [clampSigned, maxSigned]; omega

/-- Below the signed range the two ways agree. -/
theorem clampSigned_signed {position depth : Nat} (h : depth ≤ maxSigned) :
    clampSigned (signed position) depth = clamp position depth := by
  simp only [clampSigned, signed, clamp, maxSigned] at *; omega

theorem wrap_of_lt {n : Nat} (h : n < wordSize) : wrap n = n := Nat.mod_eq_of_lt h

/-! ## 3. Motions within the signed range -/

/-- A number of the signed range is its own view. -/
theorem signedView_of_mem {n : Int} (h₁ : minSigned ≤ n) (h₂ : n ≤ maxSigned) :
    signedView n = n := by
  simp only [minSigned, maxSigned] at h₁ h₂
  refine Int.bmod_eq_of_le ?_ ?_
  · simp only [wordSize]; omega
  · simp only [wordSize]; omega

theorem signedView_natCast {n : Nat} (h : n ≤ maxSigned) : signedView n = n := by
  refine signedView_of_mem ?_ ?_
  · simp only [minSigned]; omega
  · omega

/-- Going to a position by the difference leads there, also where the difference leaves the
signed range. -/
theorem clampSigned_addSaturating {start : Nat} {position : Int} (hs : start ≤ maxSigned)
    (h₁ : minSigned ≤ position) (h₂ : position ≤ maxSigned) (depth : Nat) :
    clampSigned (addSaturating start (addSaturating position (-start))) depth
      = clampSigned position depth := by
  simp only [clampSigned, addSaturating, minSigned, maxSigned] at *
  omega

end ModalStack
