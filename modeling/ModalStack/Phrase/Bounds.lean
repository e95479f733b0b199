/-
# Phrases against the bounds of a stack

Before a phrase is carried out one can ask whether the stack is large enough for it.  This
is advice: the operations themselves bring what they are given into bounds.
-/
import ModalStack.Phrase

namespace ModalStack

/-- Why a phrase does not fit a stack. -/
inductive BoundsError where
  /-- A position that no item has. -/
  | outOfRange (position depth : Nat)
  /-- More items than there are. -/
  | underflow (requested available : Nat)
  deriving DecidableEq

/-- The error in words. -/
def BoundsError.message : BoundsError → String
  | .outOfRange position depth =>
    "position " ++ toString position ++ " is out of range (stack depth " ++ toString depth ++ ")"
  | .underflow requested available =>
    "stack underflow: " ++ toString requested ++ " items requested, "
      ++ toString available ++ " available"

namespace Phrase

/-- An item has this position. -/
def checkPosition (position depth : Nat) : Except BoundsError Unit :=
  if 1 ≤ position ∧ position ≤ depth then .ok () else .error (.outOfRange position depth)

/-- The phrase fits a stack of this depth: its positions are those of items, and it counts no
more items than there are. -/
def check (phrase : Phrase) (depth : Nat) : Except BoundsError Unit :=
  match phrase.operand with
  | .position n => checkPosition n depth
  | .range start stop =>
    match checkPosition start depth with
    | .ok () => checkPosition stop depth
    | .error e => .error e
  | .count n => if depth < n then .error (.underflow n depth) else .ok ()
  | _ => .ok ()

end Phrase

end ModalStack
