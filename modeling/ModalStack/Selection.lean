/-
# Selections

A selection runs between two positions, both included.  One end, the anchor, stays where the
selection was begun; the other, the head, follows the cursor, on either side of the anchor.
-/
import ModalStack.Position

namespace ModalStack

/-- A selection of stack positions. -/
structure Selection where
  anchor : Nat
  head : Nat
  deriving DecidableEq

namespace Selection

/-- The selection of one position. -/
def single (position : Nat) : Selection := ⟨position, position⟩

/-- The lower end. -/
def low (s : Selection) : Nat := min s.anchor s.head

/-- The upper end. -/
def high (s : Selection) : Nat := max s.anchor s.head

theorem low_le_high (s : Selection) : s.low ≤ s.high :=
  Nat.le_trans (Nat.min_le_left _ _) (Nat.le_max_left _ _)

/-- How many positions are selected. -/
def span (s : Selection) : Nat := wrap (s.high - s.low + 1)

/-- Both ends, brought into a stack of this depth. -/
def clamp (s : Selection) (depth : Nat) : Selection :=
  ⟨ModalStack.clamp s.anchor depth, ModalStack.clamp s.head depth⟩

end Selection

/-- The positions from `low` up to `high`, both included. -/
def positionsBetween (low high : Nat) : List Nat := List.range' low (high + 1 - low)

theorem mem_positionsBetween {p low high : Nat} :
    p ∈ positionsBetween low high ↔ low ≤ p ∧ p ≤ high := by
  simp only [positionsBetween, List.mem_range'_1]; omega

theorem length_positionsBetween (low high : Nat) :
    (positionsBetween low high).length = high + 1 - low := by
  simp [positionsBetween]

theorem head?_positionsBetween {low high : Nat} (h : low ≤ high) :
    (positionsBetween low high).head? = some low := by
  rw [positionsBetween, List.head?_range', if_neg (by omega)]

theorem getLast?_positionsBetween {low high : Nat} (h : low ≤ high) :
    (positionsBetween low high).getLast? = some high := by
  rw [positionsBetween, List.getLast?_range', if_neg (by omega)]
  congr 1
  omega

theorem positionsBetween_ne_nil {low high : Nat} (h : low ≤ high) :
    positionsBetween low high ≠ [] := by
  have hlow : low ∈ positionsBetween low high := mem_positionsBetween.mpr ⟨Nat.le_refl low, h⟩
  exact List.ne_nil_of_mem hlow

/-- Runs of positions are the same exactly if their ends are. -/
theorem positionsBetween_inj {low high low' high' : Nat} (h : low ≤ high) :
    positionsBetween low high = positionsBetween low' high' ↔ low = low' ∧ high = high' := by
  constructor
  · intro heq
    have hlen : high + 1 - low = high' + 1 - low' := by
      rw [← length_positionsBetween, ← length_positionsBetween, heq]
    have hfirst : some low = some low' := by
      rw [← head?_positionsBetween h, ← head?_positionsBetween (by omega : low' ≤ high'), heq]
    have hlow : low = low' := Option.some.inj hfirst
    omega
  · rintro ⟨rfl, rfl⟩
    rfl

theorem nodup_positionsBetween (low high : Nat) : (positionsBetween low high).Nodup :=
  List.nodup_range'

end ModalStack
