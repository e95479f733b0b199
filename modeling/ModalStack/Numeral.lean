/-
# Numerals

A numeral is a run of ASCII digits, leading zeros allowed, and has its decimal value.  A
reader gives a largest value; a numeral beyond it is not read, however long it is.
-/
import ModalStack.Position
import ModalStack.Text.Ranges

namespace ModalStack.Numeral

/-- The digits a text begins with. -/
def leadingDigits (cs : List Char) : List Char := cs.takeWhile Char.isDigit

/-- What comes after them. -/
def afterDigits (cs : List Char) : List Char := cs.dropWhile Char.isDigit

/-- The value of a digit. -/
def digitValue (c : Char) : Nat := c.toNat - 48

/-- The decimal value of some digits. -/
def value (ds : List Char) : Nat := ds.foldl (fun n c => 10 * n + digitValue c) 0

/-- Reads a numeral that is at most `limit`. -/
def read? (limit : Nat) (cs : List Char) : Option Nat :=
  if cs ≠ [] ∧ cs.all Char.isDigit ∧ value cs ≤ limit then some (value cs) else none

/-- Reads a count; zero is no count. -/
def count? (cs : List Char) : Option Nat := (read? maxCount cs).filter (0 < ·)

/-! ## 1. What a numeral is -/

/-- The text is a numeral of this value. -/
structure IsNumeral (cs : List Char) (n : Nat) : Prop where
  ne_nil : cs ≠ []
  digits : cs.all Char.isDigit = true
  value_eq : value cs = n

theorem read?_eq_some_iff {limit n : Nat} {cs : List Char} :
    read? limit cs = some n ↔ IsNumeral cs n ∧ n ≤ limit := by
  unfold read?
  constructor
  · intro h
    split at h
    · rename_i hc
      obtain rfl := Option.some.inj h
      exact ⟨⟨hc.1, hc.2.1, rfl⟩, hc.2.2⟩
    · exact absurd h (by simp)
  · rintro ⟨⟨h₁, h₂, rfl⟩, h₃⟩
    rw [if_pos ⟨h₁, h₂, h₃⟩]

/-- The numeral of a number, without leading zeros. -/
def text (n : Nat) : List Char := (toString n).toList

theorem isNumeral_text (n : Nat) : IsNumeral (text n) n := by
  have htext : text n = Nat.toDigits 10 n := by
    rw [text, Nat.toString_eq_repr, Nat.toList_repr]
  rw [htext]
  refine ⟨Nat.toDigits_ne_nil, ?_, ?_⟩
  · exact List.all_eq_true.mpr fun c hc => Nat.isDigit_of_mem_toDigits (by decide) (by decide) hc
  · exact Nat.ofDigitChars_toDigits (by decide) (by decide)

/-! ## 2. Numerals at the beginning of a text -/

theorem leadingDigits_append (cs : List Char) :
    leadingDigits cs ++ afterDigits cs = cs :=
  List.takeWhile_append_dropWhile

theorem leadingDigits_of_not_digit {c : Char} {cs : List Char} (h : c.isDigit = false) :
    leadingDigits (c :: cs) = [] :=
  List.takeWhile_cons_of_neg (by simp [h])

/-- No letter is a digit. -/
theorem isDigit_eq_false_of_isAlpha {c : Char} (h : c.isAlpha = true) : c.isDigit = false := by
  rw [← Bool.not_eq_true, Char.isDigit_iff_toNat]
  have hletter : 65 ≤ c.toNat := by
    rcases Bool.or_eq_true_iff.mp h with hupper | hlower
    · exact (of_decide_eq_true hupper).1
    · have h97 : 97 ≤ c.toNat := of_decide_eq_true ((Bool.and_eq_true _ _).mp hlower).1
      exact Nat.le_trans (by decide) h97
  rintro ⟨-, hle⟩
  exact absurd (Nat.le_trans hletter hle) (by decide)

namespace IsNumeral

variable {ds : List Char} {n : Nat}

/-- A numeral is read up to where something else begins. -/
theorem append (h : IsNumeral ds n) {c : Char} (hc : c.isDigit = false) (cs : List Char) :
    leadingDigits (ds ++ c :: cs) = ds ∧ afterDigits (ds ++ c :: cs) = c :: cs :=
  Text.run_append h.digits (leadingDigits_of_not_digit hc)

theorem exists_cons (h : IsNumeral ds n) : ∃ d rest, ds = d :: rest ∧ d.isDigit = true := by
  obtain ⟨d, rest, hds⟩ := List.exists_cons_of_ne_nil h.ne_nil
  have hdigits : ∀ c ∈ ds, c.isDigit = true := List.all_eq_true.mp h.digits
  exact ⟨d, rest, hds, hdigits d (by rw [hds]; exact List.mem_cons_self)⟩

end IsNumeral

end ModalStack.Numeral
