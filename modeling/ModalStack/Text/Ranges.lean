/-
# Character classes as ranges of code points

A class of characters that the Unicode standard draws up is written here as a list of
ranges, both ends included, in ascending order and with a gap between neighbours.  Every
such class of this library has a part within ASCII, which is spelled out as a test, and a
part beyond it, which is such a list; so a fact about ASCII characters never needs a table.
-/

namespace ModalStack.Text

/-- The character lies in one of the ranges. -/
def inRanges (ranges : List (Nat × Nat)) (c : Char) : Bool :=
  ranges.any fun r => r.1 ≤ c.toNat && c.toNat ≤ r.2

/-- The characters of the first 128 code points. -/
def isAscii (c : Char) : Bool := c.toNat < 128

/-- A run of characters of a class, or of anything of a kind, ends where something else
begins. -/
theorem run_append {α : Type} {p : α → Bool} {run rest : List α} (h : run.all p = true)
    (hrest : rest.takeWhile p = []) :
    (run ++ rest).takeWhile p = run ∧ (run ++ rest).dropWhile p = rest := by
  have hrun : ∀ c ∈ run, p c = true := List.all_eq_true.mp h
  have hsplit : rest.takeWhile p ++ rest.dropWhile p = rest := List.takeWhile_append_dropWhile
  rw [hrest, List.nil_append] at hsplit
  constructor
  · calc (run ++ rest).takeWhile p
        = run ++ rest.takeWhile p := List.takeWhile_append_of_pos hrun
      _ = run := by rw [hrest, List.append_nil]
  · calc (run ++ rest).dropWhile p
        = rest.dropWhile p := List.dropWhile_append_of_pos hrun
      _ = rest := hsplit

/-- What is not of the kind comes first behind a run only if it does so without it. -/
theorem head?_run_append_ne {α : Type} {p : α → Bool} {run rest : List α} {c : α}
    (h : run.all p = true) (hc : p c = false) (hrest : rest.head? ≠ some c) :
    (run ++ rest).head? ≠ some c := by
  cases run with
  | nil => exact hrest
  | cons d run' =>
    have hd : p d = true := List.all_eq_true.mp h d List.mem_cons_self
    intro heq
    rw [Option.some.inj heq, hc] at hd
    exact absurd hd (by simp)

end ModalStack.Text
