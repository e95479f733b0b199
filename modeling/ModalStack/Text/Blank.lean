/-
# White space and trimming

White space is the Unicode property White_Space: the space, the five control characters
from tab to carriage return, and nineteen more beyond ASCII.  Trimming removes it at the
two ends of a text and leaves what stands inside.
-/
import ModalStack.Text.Ranges

namespace ModalStack.Text

/-- The white space beyond ASCII. -/
def blankRanges : List (Nat × Nat) :=
  [(0x85, 0x85), (0xA0, 0xA0), (0x1680, 0x1680), (0x2000, 0x200A), (0x2028, 0x2029),
   (0x202F, 0x202F), (0x205F, 0x205F), (0x3000, 0x3000)]

/-- A white-space character. -/
def isBlank (c : Char) : Bool :=
  if isAscii c then c == ' ' || (9 ≤ c.toNat && c.toNat ≤ 13) else inRanges blankRanges c

/-- The text without the white space in front. -/
def trimStart (cs : List Char) : List Char := cs.dropWhile isBlank

/-- The text without the white space at its end. -/
def trimEnd (cs : List Char) : List Char := (cs.reverse.dropWhile isBlank).reverse

/-- The text without the white space at its two ends. -/
def trim (cs : List Char) : List Char := trimEnd (trimStart cs)

/-! ## What trimming leaves -/

/-- No white space stands at either end of the text. -/
structure Bare (cs : List Char) : Prop where
  front : ∀ c ∈ cs.head?, isBlank c = false
  back : ∀ c ∈ cs.getLast?, isBlank c = false

variable {cs lead trail : List Char}

theorem takeWhile_isBlank_eq_nil (h : ∀ c ∈ cs.head?, isBlank c = false) :
    cs.takeWhile isBlank = [] := by
  cases cs with
  | nil => rfl
  | cons c rest => simp [h c rfl]

theorem trimStart_append (hlead : lead.all isBlank = true)
    (h : ∀ c ∈ cs.head?, isBlank c = false) : trimStart (lead ++ cs) = cs :=
  (run_append hlead (takeWhile_isBlank_eq_nil h)).2

theorem trimEnd_append (h : ∀ c ∈ cs.getLast?, isBlank c = false)
    (htrail : trail.all isBlank = true) : trimEnd (cs ++ trail) = cs := by
  have hreverse : trimStart (trail.reverse ++ cs.reverse) = cs.reverse :=
    trimStart_append (by rwa [List.all_reverse]) (by rwa [List.head?_reverse])
  rw [trimEnd, List.reverse_append, ← trimStart, hreverse, List.reverse_reverse]

/-- **Trimming takes away what stands around a bare text**, even around none. -/
theorem Bare.trim_append (h : Bare cs) (hlead : lead.all isBlank = true)
    (htrail : trail.all isBlank = true) : trim (lead ++ (cs ++ trail)) = cs := by
  cases cs with
  | nil =>
    have hblank : (lead ++ trail).all isBlank = true := by
      rw [List.all_append, hlead, htrail]
      rfl
    have hnothing : trimStart (lead ++ trail ++ []) = [] := trimStart_append hblank (by simp)
    rw [List.append_nil] at hnothing
    rw [List.nil_append, trim, hnothing]
    rfl
  | cons c rest =>
    rw [trim, trimStart_append hlead (by simpa using h.front), trimEnd_append h.back htrail]

theorem exists_trimStart (cs : List Char) :
    ∃ lead, lead.all isBlank = true ∧ cs = lead ++ trimStart cs ∧
      ∀ c ∈ (trimStart cs).head?, isBlank c = false := by
  refine ⟨cs.takeWhile isBlank, List.all_takeWhile, List.takeWhile_append_dropWhile.symm, ?_⟩
  intro c hc
  have h := List.head?_dropWhile_not isBlank cs
  rwa [← trimStart, Option.mem_def.mp hc] at h

theorem exists_trimEnd (cs : List Char) :
    ∃ trail, trail.all isBlank = true ∧ cs = trimEnd cs ++ trail ∧
      ∀ c ∈ (trimEnd cs).getLast?, isBlank c = false := by
  obtain ⟨lead, hlead, hsplit, hfront⟩ := exists_trimStart cs.reverse
  refine ⟨lead.reverse, by rwa [List.all_reverse], ?_, ?_⟩
  · calc cs = cs.reverse.reverse := cs.reverse_reverse.symm
      _ = (lead ++ trimStart cs.reverse).reverse := by rw [← hsplit]
      _ = trimEnd cs ++ lead.reverse := List.reverse_append
  · rwa [trimEnd, List.getLast?_reverse]

/-- **What trimming leaves is bare**, and only white space stood around it. -/
theorem exists_trim (cs : List Char) :
    ∃ lead trail, lead.all isBlank = true ∧ trail.all isBlank = true ∧
      cs = lead ++ (trim cs ++ trail) ∧ Bare (trim cs) := by
  obtain ⟨lead, hlead, hstart, hfront⟩ := exists_trimStart cs
  obtain ⟨trail, htrail, hend, hback⟩ := exists_trimEnd (trimStart cs)
  refine ⟨lead, trail, hlead, htrail, ?_, ⟨fun c hc => hfront c ?_, hback⟩⟩
  · rw [trim, ← hend, ← hstart]
  · rw [hend, List.head?_append, ← trim, Option.mem_def.mp hc]
    rfl

end ModalStack.Text
