/-
# Phrases as they are typed

A phrase comes about character by character, and before its last one it is no phrase yet.  So each
text on the way has to be recognised as a beginning of phrases, or the phrase could not be typed.
The test for beginnings is a list of outlines that is kept apart from the forms of phrases; that it
misses none of them follows from two facts.

* Without its last character a phrase is empty or has one of the outlines
  (`Phrase.Spells.exists_beginning`).
* What is left of an outline, when the end is taken away, has an outline again
  (`Phrase.Beginning.of_isPrefix`).

So every front part of a phrase passes the test, and is awaited by every keymap that does not bind
it as a phrase of its own (`Phrase.fronts_pending`).  Conversely the test promises nothing in vain,
as far as the numbers in the text can be read: what passes it is a front part of a phrase
(`Phrase.Beginning.exists_phrase`).
-/
import ModalStack.Proofs.TypedText

namespace ModalStack

namespace Phrase

open Numeral

variable {cs start ds : List Char} {phrase : Phrase}

/-! ## 1. Beginnings cut short -/

theorem all_of_isPrefix {p : Char → Bool} (h : cs.all p = true) (hstart : start <+: cs) :
    start.all p = true :=
  List.all_eq_true.mpr fun c hc => List.all_eq_true.mp h c (hstart.mem hc)

/-- **What is left of a beginning is a beginning**, unless nothing is left. -/
theorem Beginning.of_isPrefix (h : Beginning cs) (hstart : start <+: cs) (hne : start ≠ []) :
    Beginning start := by
  cases h with
  | number _ hds => exact .number hne (all_of_isPrefix hds hstart)
  | @range ds ds' hds₁ hds hds' =>
    -- the cut is in the first number, or behind it
    rcases List.prefix_or_prefix_of_prefix hstart (List.prefix_append ds _) with hcut | ⟨more, rfl⟩
    · exact .number hne (all_of_isPrefix hds hcut)
    · rcases List.prefix_cons_iff.mp ((List.prefix_append_right_inj ds).mp hstart) with
        rfl | ⟨digits, rfl, hdigits⟩
      · rw [List.append_nil]
        exact .number hds₁ hds
      · exact .range hds₁ hds (all_of_isPrefix hds' hdigits)
  | bottom =>
    rcases List.prefix_cons_iff.mp hstart with rfl | ⟨more, rfl, hmore⟩
    · exact absurd rfl hne
    · rw [List.prefix_nil.mp hmore]
      exact .bottom
  | named hname =>
    rcases List.prefix_cons_iff.mp hstart with rfl | ⟨letters, rfl, hletters⟩
    · exact absurd rfl hne
    · exact .named (all_of_isPrefix hname hletters)
  | span hop hds =>
    rcases List.prefix_cons_iff.mp hstart with rfl | ⟨digits, rfl, hdigits⟩
    · exact absurd rfl hne
    · exact .span hop (all_of_isPrefix hds hdigits)

/-! ## 2. Phrases without their last character -/

theorem beginning_of_isNumeral {n : Nat} (h : IsNumeral ds n) : Beginning ds :=
  .number h.ne_nil (Keymap.all_isDecimal h.digits)

/-- **A phrase without its last character** is a beginning, or nothing. -/
theorem Spells.exists_beginning (h : Spells cs phrase) :
    ∃ body op, cs = body ++ [op] ∧ (body = [] ∨ Beginning body) := by
  cases h with
  | bottom => exact ⟨['g'], 'g', rfl, .inr .bottom⟩
  | @named name hne hname =>
    rcases List.eq_nil_or_concat name with rfl | ⟨letters, c, rfl⟩
    · exact absurd rfl hne
    · rw [List.concat_eq_append] at hname ⊢
      exact ⟨'@' :: letters, c, rfl, .inr (.named (all_append_singleton.mp hname).1)⟩
  | @position ds _ hn _ => exact ⟨ds, 'g', rfl, .inr (beginning_of_isNumeral hn)⟩
  | @counted ds _ op hn _ _ => exact ⟨ds, op, rfl, .inr (beginning_of_isNumeral hn)⟩
  | @placed ds _ op hn _ _ _ => exact ⟨ds, op, rfl, .inr (beginning_of_isNumeral hn)⟩
  | @bare op _ _ => exact ⟨[], op, rfl, .inl rfl⟩
  | @range ds ds' _ _ op hn _ hn' _ _ =>
    refine ⟨ds ++ ',' :: ds', op, by rw [List.append_assoc, List.cons_append], .inr ?_⟩
    exact .range hn.ne_nil (Keymap.all_isDecimal hn.digits) (Keymap.all_isDecimal hn'.digits)
  | @span ds _ op hop hn _ =>
    exact ⟨op :: ds, 'g', rfl, .inr (.span hop (Keymap.all_isDecimal hn.digits))⟩

/-- A front part of a phrase is a beginning. -/
theorem Spells.beginning_of_isPrefix (h : Spells cs phrase) (hstart : start <+: cs)
    (hne : start ≠ []) (hproper : start ≠ cs) : Beginning start := by
  obtain ⟨body, op, rfl, hbody⟩ := h.exists_beginning
  rcases List.prefix_concat_iff.mp hstart with rfl | hcut
  · exact absurd rfl hproper
  · rcases hbody with rfl | hbody
    · exact absurd (List.prefix_nil.mp hcut) hne
    · exact hbody.of_isPrefix hcut hne

theorem Beginning.ne_nil (h : Beginning cs) : cs ≠ [] := by
  cases h with
  | number hne _ => exact hne
  | range _ _ _ => simp
  | bottom => simp
  | named _ => simp
  | span _ _ => simp

/-- A beginning does not begin with a quote. -/
theorem Beginning.head?_ne (h : Beginning cs) : cs.head? ≠ some '"' := by
  intro hquote
  rcases h.chars (List.mem_of_head? hquote) with hword | heq | heq
  · exact absurd hword (by decide +kernel)
  · exact absurd heq (by decide)
  · exact absurd heq (by decide)

/-! ## 3. The test -/

/-- **No phrase is out of reach of typing**: whatever text is a phrase, each of its front parts is
pending, and no keymap refuses it or runs anything else on it.  What a keymap may do is run a
phrase that the front part is by itself. -/
theorem fronts_pending {buffer front : String} (h : parse buffer = some phrase)
    (hfront : front.toList <+: buffer.toList) (hne : front ≠ "") (hproper : front ≠ buffer) :
    isPending front = true ∧
      ∀ m : Keymap, (∀ phrase', parse front = some phrase' → m.actionFor? phrase' = none) →
        m.resolveText front.toList = .pending := by
  have hne : front.toList ≠ [] := fun hnil => hne (String.toList_eq_nil_iff.mp hnil)
  have hproper : front.toList ≠ buffer.toList := fun heq => hproper (String.toList_inj.mp heq)
  have hbeginning : Beginning front.toList :=
    (parse_eq_some_iff.mp h).beginning_of_isPrefix hfront hne hproper
  constructor
  · rw [← String.ofList_toList (s := front)]
    exact isPending_iff_beginning.mpr hbeginning
  · intro m hunbound
    refine Keymap.resolveText_of_beginning hbeginning.head?_ne ?_ hbeginning
    exact fun phrase' hspells => hunbound phrase' (parse_eq_some_iff.mpr hspells)

/-- A range on its way, and a name that is a front part of a longer one: the first is no phrase,
the second is one. -/
theorem fronts_pending_of_range_and_name :
    (parse "12,34Y" = some ⟨"Y", .range 12 34⟩ ∧ parse "12,3" = none ∧
        isPending "12,3" = true ∧
        Keymap.defaultNormal.resolveText "12,3".toList = .pending) ∧
      parse "@work" = some ⟨"@", .named "work"⟩ ∧ parse "@wo" = some ⟨"@", .named "wo"⟩ ∧
        isPending "@wo" = true := by
  have hrange : parse "12,34Y" = some ⟨"Y", .range 12 34⟩ := by decide +kernel
  have hnone : parse "12,3" = none := by decide +kernel
  have hname : parse "@work" = some ⟨"@", .named "work"⟩ := by decide +kernel
  have hfront : "12,3".toList <+: "12,34Y".toList := by decide +kernel
  have hfront' : "@wo".toList <+: "@work".toList := by decide +kernel
  obtain ⟨hpending, hresolve⟩ := fronts_pending hrange hfront (by decide) (by decide)
  obtain ⟨hpending', -⟩ := fronts_pending hname hfront' (by decide) (by decide)
  refine ⟨⟨hrange, hnone, hpending, hresolve _ ?_⟩, hname, by decide +kernel, hpending'⟩
  intro phrase' hparse
  exact absurd hparse (by simp [hnone])

/-- **Nothing is pending in vain**: a beginning whose numbers can be read is a front part of a
phrase. -/
theorem Beginning.exists_phrase (h : Beginning cs)
    (hdigits : ∀ c ∈ cs, Text.isDecimal c = true → c.isDigit = true)
    (hfits : ∀ ds ∈ leadingDigits cs :: endNumerals cs, value ds ≤ maxPosition) :
    ∃ more phrase, more ≠ [] ∧ parse (String.ofList (cs ++ more)) = some phrase := by
  obtain ⟨hlead, hends⟩ := List.forall_mem_cons.mp hfits
  obtain ⟨more, phrase, hmore, hspells⟩ :
      ∃ more phrase, more ≠ [] ∧ Spells (cs ++ more) phrase := by
    rcases h.completed hdigits hends with hnumber | ⟨more, phrase, hmore, hspells, -⟩
    · have hnumeral : IsNumeral cs (value cs) := ⟨h.ne_nil, hnumber, rfl⟩
      rw [leadingDigits_of_all hnumber] at hlead
      exact ⟨['g'], _, by simp, .position hnumeral hlead⟩
    · exact ⟨more, phrase, hmore, hspells⟩
  refine ⟨more, phrase, hmore, parse_eq_some_iff.mpr ?_⟩
  rwa [String.toList_ofList]

end Phrase

end ModalStack
