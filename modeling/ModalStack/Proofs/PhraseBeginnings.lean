/-
# Beginnings of phrases

A text that could still grow into a phrase is a number, a range, the first of two `g`, a name, or
an operator with a target (`Phrase.Beginning`).  Each of these but the number is completed by
writing on: a range gets an operator, a name one more letter, a target its `g`
(`Phrase.Beginning.completed`).

Two things stand in the way of that.  The test for beginnings accepts digits of every script, and
numbers of every size, but only ASCII digits are read, and only up to a limit; so the numbers that
can become nothing but positions are collected (`Phrase.endNumerals`).  A range that begins beyond
the limit is no phrase however it goes on (`Phrase.Spells.start_le`).
-/
import ModalStack.Proofs.PhraseEnds

namespace ModalStack

namespace Phrase

open Numeral

/-! ## 1. The outlines -/

/-- The numerals in a beginning of a phrase that can only become positions: both ends of a range,
and the target behind an operator. -/
def endNumerals (cs : List Char) : List (List Char) :=
  match afterDigits cs with
  | ',' :: more => [leadingDigits cs, leadingDigits more]
  | op :: more => if op ∈ spanOperators then [leadingDigits more] else []
  | [] => []

/-- What looks like the beginning of a phrase. -/
inductive Beginning : List Char → Prop
  | number {ds : List Char} : ds ≠ [] → ds.all Text.isDecimal = true → Beginning ds
  | range {ds ds' : List Char} : ds ≠ [] → ds.all Text.isDecimal = true →
      ds'.all Text.isDecimal = true → Beginning (ds ++ ',' :: ds')
  | bottom : Beginning ['g']
  | named {name : List Char} : name.all Text.isWord = true → Beginning ('@' :: name)
  | span {op : Char} {ds : List Char} : op ∈ spanOperators → ds.all Text.isDecimal = true →
      Beginning (op :: ds)

variable {cs ds ds' front rest : List Char} {c op : Char}

theorem beginning_of_isPendingOperator (h : isPendingOperator cs = true) : Beginning cs := by
  unfold isPendingOperator at h
  split at h
  · exact .bottom
  · exact .named h
  · obtain ⟨hop, hds⟩ := (Bool.and_eq_true _ _).mp h
    exact .span (by simpa using hop) hds
  · exact absurd h (by simp)

/-- **The outlines are those of the test.** -/
theorem isPending_iff_beginning : isPending (String.ofList cs) = true ↔ Beginning cs := by
  constructor
  · intro h
    rw [isPending_ofList, Bool.or_eq_true] at h
    rcases h with h | h
    · obtain ⟨ds, hne, hds, heq⟩ := isPendingRange_iff.mp h
      rcases heq with rfl | ⟨ds', hds', rfl⟩
      · exact .number hne hds
      · exact .range hne hds hds'
    · exact beginning_of_isPendingOperator h
  · intro h
    cases h with
    | number hne hds => exact isPending_range hne hds
    | range hne hds hds' => exact isPending_secondEnd hne hds hds'
    | bottom => decide +kernel
    | named hname => exact isPending_name hname
    | span hop hds => exact isPending_span hop hds

theorem not_isDecimal_of_isAlpha (h : c.isAlpha = true) : Text.isDecimal c = false := by
  rw [← Bool.not_eq_true]
  intro hdecimal
  have hdigit : c.isDigit = true :=
    Text.isDigit_of_isDecimal hdecimal (by simp [Char.isAlphanum, h])
  exact absurd hdigit (by simp [isDigit_eq_false_of_isAlpha h])

/-- A letter in a beginning comes first, before digits, or stands in a name. -/
theorem Beginning.letter (h : Beginning (front ++ op :: rest)) (hop : op.isAlpha = true) :
    (front = [] ∧ rest.all Text.isDecimal = true) ∨ front.head? = some '@' := by
  have hnot : ∀ {ds : List Char}, ds.all Text.isDecimal = true → op ∉ ds := by
    intro ds hds hmem
    exact absurd (List.all_eq_true.mp hds op hmem) (by simp [not_isDecimal_of_isAlpha hop])
  have hmem : op ∈ front ++ op :: rest := by simp
  generalize hcs : front ++ op :: rest = cs at h hmem
  cases h with
  | number _ hds => exact absurd hmem (hnot hds)
  | range _ hds hds' =>
    rcases List.mem_append.mp hmem with hmem | hmem
    · exact absurd hmem (hnot hds)
    · rcases List.mem_cons.mp hmem with rfl | hmem
      · exact absurd hop (by decide)
      · exact absurd hmem (hnot hds')
  | bottom =>
    cases front with
    | nil =>
      obtain ⟨-, rfl⟩ := List.cons.inj hcs
      exact .inl ⟨rfl, rfl⟩
    | cons _ _ => exact absurd (List.cons.inj hcs).2 (by simp)
  | named _ =>
    cases front with
    | nil =>
      obtain ⟨rfl, -⟩ := List.cons.inj hcs
      exact absurd hop (by decide)
    | cons _ _ =>
      obtain ⟨rfl, -⟩ := List.cons.inj hcs
      exact .inr rfl
  | span _ hds =>
    cases front with
    | nil =>
      obtain ⟨-, rfl⟩ := List.cons.inj hcs
      exact .inl ⟨rfl, hds⟩
    | cons _ _ =>
      obtain ⟨-, rfl⟩ := List.cons.inj hcs
      exact absurd (by simp) (hnot hds)

/-- What stands in a beginning. -/
theorem Beginning.chars (h : Beginning cs) (hc : c ∈ cs) :
    Text.isWord c = true ∨ c = ',' ∨ c = '@' := by
  have hword : ∀ {ds : List Char}, ds.all Text.isDecimal = true → c ∈ ds →
      Text.isWord c = true :=
    fun hds hmem => Text.isWord_of_isDecimal (List.all_eq_true.mp hds c hmem)
  cases h with
  | number _ hds => exact .inl (hword hds hc)
  | range _ hds hds' =>
    rcases List.mem_append.mp hc with hc | hc
    · exact .inl (hword hds hc)
    · rcases List.mem_cons.mp hc with rfl | hc
      · exact .inr (.inl rfl)
      · exact .inl (hword hds' hc)
  | bottom =>
    rw [List.mem_singleton.mp hc]
    exact .inl (by decide +kernel)
  | named hname =>
    rcases List.mem_cons.mp hc with rfl | hc
    · exact .inr (.inr rfl)
    · exact .inl (List.all_eq_true.mp hname c hc)
  | @span op ds hop hds =>
    rcases List.mem_cons.mp hc with rfl | hc
    · have hall : spanOperators.all Text.isWord = true := by decide +kernel
      exact .inl (List.all_eq_true.mp hall c hop)
    · exact .inl (hword hds hc)

/-! ## 2. How beginnings are completed -/

/-- The operator under which a beginning is looked up in the end. -/
def completingOperator : List Char → String
  | '@' :: _ => "@"
  | 'g' :: _ => "gg"
  | op :: _ => if op ∈ spanOperators then String.ofList [op, 'g'] else "Y"
  | [] => "Y"

theorem completingOperator_of_digit (hc : c.isDigit = true) (cs : List Char) :
    completingOperator (c :: cs) = "Y" := by
  unfold completingOperator
  split
  · rename_i heq
    obtain ⟨rfl, -⟩ := List.cons.inj heq
    exact absurd hc (by decide)
  · rename_i heq
    obtain ⟨rfl, -⟩ := List.cons.inj heq
    exact absurd hc (by decide)
  · rename_i heq
    obtain ⟨rfl, -⟩ := List.cons.inj heq
    refine if_neg fun hop => ?_
    have hnone : spanOperators.all (fun op => !op.isDigit) = true := by decide
    exact absurd hc (by simpa using List.all_eq_true.mp hnone c hop)
  · rfl

theorem completingOperator_of_span (hop : op ∈ spanOperators) (cs : List Char) :
    completingOperator (op :: cs) = String.ofList [op, 'g'] := by
  simp only [spanOperators, List.mem_cons, List.not_mem_nil, or_false] at hop
  rcases hop with rfl | rfl | rfl
  all_goals rfl

theorem leadingDigits_of_all (hds : ds.all Char.isDigit = true) : leadingDigits ds = ds := by
  have hrun : leadingDigits (ds ++ []) = ds := (Text.run_append hds rfl).1
  rwa [List.append_nil] at hrun

theorem endNumerals_range (hds : ds.all Char.isDigit = true)
    (hds' : ds'.all Char.isDigit = true) : endNumerals (ds ++ ',' :: ds') = [ds, ds'] := by
  obtain ⟨hlead, hafter⟩ : leadingDigits (ds ++ ',' :: ds') = ds ∧
      afterDigits (ds ++ ',' :: ds') = ',' :: ds' :=
    Text.run_append hds (leadingDigits_of_not_digit (by decide))
  simp only [endNumerals, hlead, hafter, leadingDigits_of_all hds']

theorem endNumerals_span (hop : op ∈ spanOperators) (hds : ds.all Char.isDigit = true) :
    endNumerals (op :: ds) = [ds] := by
  simp only [spanOperators, List.mem_cons, List.not_mem_nil, or_false] at hop
  rcases hop with rfl | rfl | rfl
  all_goals
    simp [endNumerals, afterDigits, spanOperators, leadingDigits_of_all hds]

/-- Some digits that are not too large, completed to a numeral. -/
theorem exists_isNumeral (hds : ds.all Char.isDigit = true) (hle : value ds ≤ maxPosition) :
    ∃ more n, IsNumeral (ds ++ more) n ∧ n ≤ maxPosition := by
  cases ds with
  | nil => exact ⟨['1'], 1, ⟨by decide, by decide, by decide⟩, by decide⟩
  | cons d rest =>
    refine ⟨[], value (d :: rest), ?_, hle⟩
    rw [List.append_nil]
    exact ⟨List.cons_ne_nil d rest, hds, rfl⟩

/-- **Every beginning but a number becomes a phrase**, if its ends and targets can be read. -/
theorem Beginning.completed (h : Beginning cs)
    (hdigits : ∀ c ∈ cs, Text.isDecimal c = true → c.isDigit = true)
    (hfits : ∀ ds ∈ endNumerals cs, value ds ≤ maxPosition) :
    cs.all Char.isDigit = true ∨
      ∃ more phrase, more ≠ [] ∧ Spells (cs ++ more) phrase ∧
        phrase.operator = completingOperator cs := by
  have hall : ∀ {ds : List Char}, ds ⊆ cs → ds.all Text.isDecimal = true →
      ds.all Char.isDigit = true := by
    intro ds hsub hds
    refine List.all_eq_true.mpr fun c hc => ?_
    exact hdigits c (hsub hc) (List.all_eq_true.mp hds c hc)
  cases h with
  | number _ hds => exact .inl (hall (List.Subset.refl _) hds)
  | @range ds ds' hne hds hds' =>
    have hds : ds.all Char.isDigit = true := hall (by simp) hds
    have hds' : ds'.all Char.isDigit = true :=
      hall (fun c hc => by simp [hc]) hds'
    rw [endNumerals_range hds hds'] at hfits
    have hstart : IsNumeral ds (value ds) := ⟨hne, hds, rfl⟩
    obtain ⟨more, n, hstop, hn⟩ := exists_isNumeral hds' (hfits ds' (by simp))
    have hspells : Spells (ds ++ ',' :: ((ds' ++ more) ++ ['Y']))
        ⟨String.singleton 'Y', .range (value ds) n⟩ :=
      .range hstart (hfits ds (by simp)) hstop hn (by decide)
    obtain ⟨d, rest, rfl, hd⟩ := hstart.exists_cons
    exact .inr ⟨more ++ ['Y'], _, by simp,
      by simpa only [List.cons_append, List.append_assoc] using hspells,
      (completingOperator_of_digit hd _).symm⟩
  | bottom => exact .inr ⟨['g'], _, by simp, .bottom, rfl⟩
  | @named name hname =>
    have hlonger : (name ++ ['a']).all Text.isWord = true :=
      all_append_singleton.mpr ⟨hname, by decide +kernel⟩
    exact .inr ⟨['a'], _, by simp, .named (by simp) hlonger, rfl⟩
  | @span op ds hop hds =>
    have hds : ds.all Char.isDigit = true := hall (by simp) hds
    rw [endNumerals_span hop hds] at hfits
    obtain ⟨more, n, hnum, hn⟩ := exists_isNumeral hds (hfits ds (by simp))
    have hspells : Spells (op :: ((ds ++ more) ++ ['g'])) ⟨String.ofList [op, 'g'], .position n⟩ :=
      .span hop hnum hn
    exact .inr ⟨more ++ ['g'], _, by simp,
      by simpa only [List.cons_append, List.append_assoc] using hspells,
      (completingOperator_of_span hop ds).symm⟩

/-- What begins as a name is a name. -/
theorem Spells.operator_of_name {phrase : Phrase} (h : Spells ('@' :: cs) phrase) :
    phrase.operator = "@" := by
  have hnot : ∀ {ds tail : List Char} {n : Nat}, IsNumeral ds n → ds ++ tail ≠ '@' :: cs := by
    intro ds tail n hnum heq
    obtain ⟨d, rest, rfl, hd⟩ := hnum.exists_cons
    obtain ⟨rfl, -⟩ := List.cons.inj heq
    exact absurd hd (by decide)
  generalize hcs : '@' :: cs = text at h
  cases h with
  | bottom => exact absurd (List.cons.inj hcs).1 (by decide)
  | named _ _ => rfl
  | position hn _ => exact absurd hcs.symm (hnot hn)
  | counted hn _ _ => exact absurd hcs.symm (hnot hn)
  | placed hn _ _ _ => exact absurd hcs.symm (hnot hn)
  | range hn _ _ _ _ => exact absurd hcs.symm (hnot hn)
  | bare hop =>
    obtain ⟨rfl, -⟩ := List.cons.inj hcs
    simp [ownOperands] at hop
  | span hop _ _ =>
    obtain ⟨rfl, -⟩ := List.cons.inj hcs
    exact absurd hop (by decide)

/-- The first end of a range can be read. -/
theorem Spells.start_le {phrase : Phrase} {n : Nat} (h : Spells (ds ++ ',' :: cs) phrase)
    (hds : IsNumeral ds n) : n ≤ maxPosition := by
  have hnot : ∀ {ds' : List Char} {k : Nat} {op : Char}, IsNumeral ds' k → op ≠ ',' →
      ds' ++ [op] ≠ ds ++ ',' :: cs := by
    intro ds' k op hnum hop heq
    have hmem : ',' ∈ ds' ++ [op] := by simp [heq]
    rcases List.mem_append.mp hmem with hmem | hmem
    · exact absurd (List.all_eq_true.mp hnum.digits _ hmem) (by decide)
    · exact hop (List.mem_singleton.mp hmem).symm
  obtain ⟨d, rest, hd, hdigit⟩ := hds.exists_cons
  generalize hcs : ds ++ ',' :: cs = text at h
  have hhead : text = d :: (rest ++ ',' :: cs) := by rw [← hcs, hd, List.cons_append]
  cases h with
  | bottom => exact absurd hdigit (by rw [← (List.cons.inj hhead).1]; decide)
  | named _ _ => exact absurd hdigit (by rw [← (List.cons.inj hhead).1]; decide)
  | position hn _ => exact absurd hcs.symm (hnot hn (by decide))
  | counted hn _ hop =>
    refine absurd hcs.symm (hnot hn ?_)
    rintro rfl
    exact absurd hop (by decide)
  | placed hn _ hop _ =>
    refine absurd hcs.symm (hnot hn ?_)
    rintro rfl
    exact absurd hop (by decide)
  | bare _ => exact absurd (List.cons.inj hhead).2 (by simp)
  | @range ds₁ ds₂ n₁ n₂ op hn hle _ _ _ =>
    have hlead : leadingDigits (ds ++ ',' :: cs) = ds := (hds.append (by decide) cs).1
    rw [hcs, (hn.append (by decide) _).1] at hlead
    rw [← hds.value_eq, ← hlead, hn.value_eq]
    exact hle
  | span hop _ _ =>
    rw [← (List.cons.inj hhead).1] at hdigit
    simp only [spanOperators, List.mem_cons, List.not_mem_nil, or_false] at hop
    rcases hop with rfl | rfl | rfl
    all_goals exact absurd hdigit (by decide)

end Phrase

end ModalStack
