/-
# The grammar of phrases

What the seven forms of phrases accept is written down here once as a grammar: which text spells
which operator with which operand (`Phrase.Spells`).  The parser finds exactly that
(`Phrase.parse_exact`).  So every phrase of the grammar can be written out and read back
(`Phrase.spelling`), and since a text spells one phrase at most, the order in which the forms are
tried does not matter.

Forms overlap, but never in conflict.  A position `ng` is also a number with a letter behind it,
and both readings are the same phrase; otherwise what stands behind the first digits, or before
them, tells the forms apart.  A number that is too large is no number, and then no later form
takes the text either.
-/
import ModalStack.Phrase

namespace ModalStack

namespace Phrase

open Numeral

/-! ## 1. The grammar -/

/-- The operators that have an operand of their own. -/
def ownOperands : List (Char × Operand) :=
  [('G', .special .top), ('j', .relative 1), ('k', .relative (-1)),
   ('d', .count 1), ('y', .count 1), ('p', .count 1), ('x', .count 1),
   ('s', .special .swap), ('r', .special .rotate)]

/-- The text spells the phrase. -/
inductive Spells : List Char → Phrase → Prop
  | bottom : Spells ['g', 'g'] ⟨"gg", .special .bottom⟩
  | named {name : List Char} : name ≠ [] → name.all Text.isWord = true →
      Spells ('@' :: name) ⟨"@", .named (String.ofList name)⟩
  | position {ds : List Char} {n : Nat} : IsNumeral ds n → n ≤ maxPosition →
      Spells (ds ++ ['g']) ⟨"g", .position n⟩
  | counted {ds : List Char} {n : Nat} {op : Char} : IsNumeral ds n → n ≤ maxCount →
      op ∈ countOperators → Spells (ds ++ [op]) ⟨String.singleton op, .count n⟩
  | placed {ds : List Char} {n : Nat} {op : Char} : IsNumeral ds n → n ≤ maxPosition →
      op.isAlpha = true → op ∉ countOperators →
      Spells (ds ++ [op]) ⟨String.singleton op, .position n⟩
  | bare {op : Char} {operand : Operand} : (op, operand) ∈ ownOperands →
      Spells [op] ⟨String.singleton op, operand⟩
  | range {ds ds' : List Char} {n m : Nat} {op : Char} : IsNumeral ds n → n ≤ maxPosition →
      IsNumeral ds' m → m ≤ maxPosition → op.isAlpha = true →
      Spells (ds ++ ',' :: (ds' ++ [op])) ⟨String.singleton op, .range n m⟩
  | span {ds : List Char} {n : Nat} {op : Char} : op ∈ spanOperators → IsNumeral ds n →
      n ≤ maxPosition → Spells (op :: (ds ++ ['g'])) ⟨String.ofList [op, 'g'], .position n⟩

variable {cs ds : List Char} {n : Nat} {op : Char} {operand : Operand} {phrase : Phrase}

/-- Operators that take a count are no digits. -/
theorem isDigit_of_mem_countOperators (h : op ∈ countOperators) : op.isDigit = false := by
  have hall : countOperators.all (fun op => !op.isDigit) = true := by decide
  simpa using List.all_eq_true.mp hall op h

/-- Operators that have an operand of their own are letters. -/
theorem isAlpha_of_mem_ownOperands (h : (op, operand) ∈ ownOperands) : op.isAlpha = true := by
  have hall : ownOperands.all (fun e => e.1.isAlpha) = true := by decide
  exact List.all_eq_true.mp hall (op, operand) h

/-- The two ways to write down the operands that operators have of their own. -/
theorem ownOperand?_eq_some_iff : ownOperand? op = some operand ↔ (op, operand) ∈ ownOperands := by
  simp only [ownOperands, List.mem_cons, List.not_mem_nil, or_false, Prod.mk.injEq]
  constructor
  · intro h
    unfold ownOperand? at h
    split at h
    case h_10 => exact absurd h (by simp)
    all_goals
      obtain rfl := Option.some.inj h
      simp
  · intro h
    rcases h with ⟨rfl, rfl⟩ | ⟨rfl, rfl⟩ | ⟨rfl, rfl⟩ | ⟨rfl, rfl⟩ | ⟨rfl, rfl⟩ | ⟨rfl, rfl⟩ |
      ⟨rfl, rfl⟩ | ⟨rfl, rfl⟩ | ⟨rfl, rfl⟩
    all_goals rfl

/-! ## 2. What a form accepts is spelled -/

theorem spells_of_bottom? (h : bottom? cs = some phrase) : Spells cs phrase := by
  unfold bottom? at h
  split at h
  · rename_i hcs
    obtain rfl := Option.some.inj h
    rw [hcs]
    exact .bottom
  · exact absurd h (by simp)

theorem spells_of_named? (h : named? cs = some phrase) : Spells cs phrase := by
  unfold named? at h
  split at h
  · split at h
    · rename_i hname
      obtain rfl := Option.some.inj h
      exact .named hname.1 hname.2
    · exact absurd h (by simp)
  · exact absurd h (by simp)

theorem spells_of_position? (h : position? cs = some phrase) : Spells cs phrase := by
  unfold position? at h
  split at h
  · rename_i hafter
    obtain ⟨n, hn, rfl⟩ := Option.map_eq_some_iff.mp h
    obtain ⟨hnum, hle⟩ := read?_eq_some_iff.mp hn
    rw [← leadingDigits_append cs, hafter]
    exact .position hnum hle
  · exact absurd h (by simp)

theorem spells_of_counted? (h : counted? cs = some phrase) : Spells cs phrase := by
  unfold counted? at h
  split at h
  · rename_i op hafter
    rw [← leadingDigits_append cs, hafter]
    split at h
    · rename_i hop
      obtain ⟨n, hn, rfl⟩ := Option.map_eq_some_iff.mp h
      obtain ⟨hnum, hle⟩ := read?_eq_some_iff.mp hn
      exact .counted hnum hle hop
    · rename_i hcount
      split at h
      · rename_i hop
        obtain ⟨n, hn, rfl⟩ := Option.map_eq_some_iff.mp h
        obtain ⟨hnum, hle⟩ := read?_eq_some_iff.mp hn
        exact .placed hnum hle hop hcount
      · exact absurd h (by simp)
  · exact absurd h (by simp)

theorem spells_of_bare? (h : bare? cs = some phrase) : Spells cs phrase := by
  unfold bare? at h
  split at h
  · obtain ⟨operand, hown, rfl⟩ := Option.map_eq_some_iff.mp h
    exact .bare (ownOperand?_eq_some_iff.mp hown)
  · exact absurd h (by simp)

theorem spells_of_range? (h : range? cs = some phrase) : Spells cs phrase := by
  unfold range? at h
  split at h
  · rename_i more hafter
    split at h
    · rename_i op hmore
      split at h
      · rename_i hop
        obtain ⟨n, hn, hstop⟩ := Option.bind_eq_some_iff.mp h
        obtain ⟨m, hm, rfl⟩ := Option.map_eq_some_iff.mp hstop
        obtain ⟨hnum, hle⟩ := read?_eq_some_iff.mp hn
        obtain ⟨hnum', hle'⟩ := read?_eq_some_iff.mp hm
        rw [← leadingDigits_append cs, hafter, ← leadingDigits_append more, hmore]
        exact .range hnum hle hnum' hle' hop
      · exact absurd h (by simp)
    · exact absurd h (by simp)
  · exact absurd h (by simp)

theorem spells_of_span? (h : span? cs = some phrase) : Spells cs phrase := by
  unfold span? at h
  split at h
  · rename_i op more
    split at h
    · rename_i hspan
      obtain ⟨n, hn, rfl⟩ := Option.map_eq_some_iff.mp h
      obtain ⟨hnum, hle⟩ := read?_eq_some_iff.mp hn
      rw [← leadingDigits_append more, hspan.2]
      exact .span hspan.1 hnum hle
    · exact absurd h (by simp)
  · exact absurd h (by simp)

/-- **What any form accepts is spelled**, whichever is asked first. -/
theorem spells_of_mem_forms {form : List Char → Option Phrase} (hmem : form ∈ forms)
    (h : form cs = some phrase) : Spells cs phrase := by
  simp only [forms, List.mem_cons, List.not_mem_nil, or_false] at hmem
  rcases hmem with rfl | rfl | rfl | rfl | rfl | rfl | rfl
  · exact spells_of_bottom? h
  · exact spells_of_named? h
  · exact spells_of_position? h
  · exact spells_of_counted? h
  · exact spells_of_bare? h
  · exact spells_of_range? h
  · exact spells_of_span? h

/-! ## 3. What is spelled is accepted -/

/-- A text that begins with a digit is no name and not `gg`. -/
theorem parse_numeral (h : IsNumeral ds n) (rest : List Char) :
    parse (String.ofList (ds ++ rest)) =
      [position?, counted?, bare?, range?, span?].findSome? fun form => form (ds ++ rest) := by
  obtain ⟨d, ds', rfl, hd⟩ := h.exists_cons
  have hbottom : bottom? (d :: ds' ++ rest) = none := by
    refine if_neg fun heq => ?_
    obtain ⟨rfl, -⟩ := List.cons.inj heq
    exact absurd hd (by decide)
  have hnamed : named? (d :: ds' ++ rest) = none := by
    rw [List.cons_append]
    unfold named?
    split
    · rename_i heq
      obtain ⟨rfl, -⟩ := List.cons.inj heq
      exact absurd hd (by decide)
    · rfl
  rw [parse, forms, String.toList_ofList, List.findSome?_cons, hbottom, List.findSome?_cons,
    hnamed]

theorem position?_of_ne (h : IsNumeral ds n) {c : Char} (hc : c.isDigit = false)
    (hne : c ≠ 'g') : position? (ds ++ c :: cs) = none := by
  unfold position?
  rw [(h.append hc cs).2]
  split
  · rename_i heq
    exact absurd (List.cons.inj heq).1 hne
  · rfl

theorem parse_position (h : IsNumeral ds n) (hn : n ≤ maxPosition) :
    parse (String.ofList (ds ++ ['g'])) = some ⟨"g", .position n⟩ := by
  obtain ⟨hlead, hafter⟩ := h.append (c := 'g') (by decide) []
  have hread : read? maxPosition ds = some n :=
    read?_eq_some_iff.mpr ⟨h, hn⟩
  have hposition : position? (ds ++ ['g']) = some ⟨"g", .position n⟩ := by
    simp only [position?, hafter, hlead, hread, Option.map_some]
  rw [parse_numeral h, List.findSome?_cons, hposition]

theorem parse_counted (h : IsNumeral ds n) (hn : n ≤ maxCount) (hop : op ∈ countOperators) :
    parse (String.ofList (ds ++ [op])) = some ⟨String.singleton op, .count n⟩ := by
  have hdigit : op.isDigit = false := isDigit_of_mem_countOperators hop
  have hne : op ≠ 'g' := by
    rintro rfl
    exact absurd hop (by decide)
  obtain ⟨hlead, hafter⟩ := h.append hdigit []
  have hread : read? maxCount ds = some n :=
    read?_eq_some_iff.mpr ⟨h, hn⟩
  have hcounted : counted? (ds ++ [op]) = some ⟨String.singleton op, .count n⟩ := by
    simp only [counted?, hafter, hlead, if_pos hop, hread, Option.map_some]
  rw [parse_numeral h, List.findSome?_cons, position?_of_ne h hdigit hne, List.findSome?_cons,
    hcounted]

theorem parse_placed (h : IsNumeral ds n) (hn : n ≤ maxPosition) (hop : op.isAlpha = true)
    (hcount : op ∉ countOperators) :
    parse (String.ofList (ds ++ [op])) = some ⟨String.singleton op, .position n⟩ := by
  by_cases hg : op = 'g'
  · -- the two readings of `ng`
    subst hg
    exact parse_position h hn
  · have hdigit : op.isDigit = false := isDigit_eq_false_of_isAlpha hop
    obtain ⟨hlead, hafter⟩ := h.append hdigit []
    have hread : read? maxPosition ds = some n :=
      read?_eq_some_iff.mpr ⟨h, hn⟩
    have hcounted : counted? (ds ++ [op]) = some ⟨String.singleton op, .position n⟩ := by
      simp only [counted?, hafter, hlead, if_neg hcount, if_pos hop, hread, Option.map_some]
    rw [parse_numeral h, List.findSome?_cons, position?_of_ne h hdigit hg, List.findSome?_cons,
      hcounted]

theorem parse_range {ds' : List Char} {m : Nat} (h : IsNumeral ds n) (hn : n ≤ maxPosition)
    (h' : IsNumeral ds' m) (hm : m ≤ maxPosition) (hop : op.isAlpha = true) :
    parse (String.ofList (ds ++ ',' :: (ds' ++ [op])))
      = some ⟨String.singleton op, .range n m⟩ := by
  obtain ⟨hlead, hafter⟩ := h.append (c := ',') (by decide) (ds' ++ [op])
  obtain ⟨hlead', hafter'⟩ := h'.append (isDigit_eq_false_of_isAlpha hop) []
  have hcounted : counted? (ds ++ ',' :: (ds' ++ [op])) = none := by
    simp only [counted?, hafter]
    split
    · rename_i heq
      exact absurd (List.cons.inj heq).2 (by simp)
    · rfl
  have hbare : bare? (ds ++ ',' :: (ds' ++ [op])) = none := by
    obtain ⟨d, rest, rfl, -⟩ := h.exists_cons
    simp [bare?]
  have hread : read? maxPosition ds = some n :=
    read?_eq_some_iff.mpr ⟨h, hn⟩
  have hread' : read? maxPosition ds' = some m :=
    read?_eq_some_iff.mpr ⟨h', hm⟩
  have hrange : range? (ds ++ ',' :: (ds' ++ [op]))
      = some ⟨String.singleton op, .range n m⟩ := by
    simp only [range?, hafter, hafter', hlead, hlead', if_pos hop, hread, hread',
      Option.bind_some, Option.map_some]
  rw [parse_numeral h, List.findSome?_cons, position?_of_ne h (by decide) (by decide),
    List.findSome?_cons, hcounted, List.findSome?_cons, hbare, List.findSome?_cons, hrange]

theorem parse_named {name : List Char} (hne : name ≠ []) (h : name.all Text.isWord = true) :
    parse (String.ofList ('@' :: name)) = some ⟨"@", .named (String.ofList name)⟩ := by
  have hbottom : bottom? ('@' :: name) = none := if_neg fun heq => absurd heq (by simp)
  have hnamed : named? ('@' :: name) = some ⟨"@", .named (String.ofList name)⟩ :=
    if_pos ⟨hne, h⟩
  rw [parse, forms, String.toList_ofList, List.findSome?_cons, hbottom, List.findSome?_cons,
    hnamed]

theorem parse_bare (h : (op, operand) ∈ ownOperands) :
    parse (String.ofList [op]) = some ⟨String.singleton op, operand⟩ := by
  have hall : ownOperands.all (fun e =>
      parse (String.ofList [e.1]) == some ⟨String.singleton e.1, e.2⟩) = true := by
    decide +kernel
  exact eq_of_beq (List.all_eq_true.mp hall (op, operand) h)

theorem parse_span (hop : op ∈ spanOperators) (h : IsNumeral ds n) (hn : n ≤ maxPosition) :
    parse (String.ofList (op :: (ds ++ ['g'])))
      = some ⟨String.ofList [op, 'g'], .position n⟩ := by
  obtain ⟨hlead, hafter⟩ := h.append (c := 'g') (by decide) []
  have hread : read? maxPosition ds = some n :=
    read?_eq_some_iff.mpr ⟨h, hn⟩
  have hspan : span? (op :: (ds ++ ['g'])) = some ⟨String.ofList [op, 'g'], .position n⟩ := by
    rw [span?, hlead, hread]
    exact if_pos ⟨hop, hafter⟩
  have hearlier : [bottom?, named?, position?, counted?, bare?, range?].findSome?
      (fun form => form (op :: (ds ++ ['g']))) = none := by
    -- an operator stands where the other forms have `gg`, `@`, a numeral or the end
    obtain ⟨d, rest, rfl, -⟩ := h.exists_cons
    rw [List.findSome?_eq_none_iff]
    simp only [spanOperators, List.mem_cons, List.not_mem_nil, or_false] at hop
    rcases hop with rfl | rfl | rfl
    all_goals
      simp [bottom?, named?, position?, counted?, bare?, range?, afterDigits]
  have hforms : forms =
      [bottom?, named?, position?, counted?, bare?, range?] ++ [span?] := rfl
  rw [parse, String.toList_ofList, hforms, List.findSome?_append, hearlier, Option.none_or,
    List.findSome?_cons, hspan]

/-- **What is spelled is accepted.** -/
theorem parse_of_spells (h : Spells cs phrase) : parse (String.ofList cs) = some phrase := by
  cases h with
  | bottom => decide +kernel
  | named hne hname => exact parse_named hne hname
  | position hn hle => exact parse_position hn hle
  | counted hn hle hop => exact parse_counted hn hle hop
  | placed hn hle hop hcount => exact parse_placed hn hle hop hcount
  | bare hop => exact parse_bare hop
  | range hn hle hm hle' hop => exact parse_range hn hle hm hle' hop
  | span hop hn hle => exact parse_span hop hn hle

theorem parse_eq_some_iff {buffer : String} :
    parse buffer = some phrase ↔ Spells buffer.toList phrase := by
  constructor
  · intro h
    obtain ⟨form, hmem, hform⟩ := List.exists_of_findSome?_eq_some h
    exact spells_of_mem_forms hmem hform
  · intro h
    have hparse : parse (String.ofList buffer.toList) = some phrase := parse_of_spells h
    rwa [String.ofList_toList] at hparse

/-! ## 4. Writing phrases -/

/-- The phrase written out, its numbers without leading zeros. -/
def spelling : Phrase → String
  | ⟨op, .count n⟩ => String.ofList (text n ++ op.toList)
  | ⟨op, .position n⟩ =>
    match op.toList with
    | [op, 'g'] => String.ofList (op :: (text n ++ ['g']))
    | op => String.ofList (text n ++ op)
  | ⟨op, .range n m⟩ => String.ofList (text n ++ ',' :: (text m ++ op.toList))
  | ⟨op, .named name⟩ => op ++ name
  | ⟨op, .relative _⟩ | ⟨op, .special _⟩ => op

theorem spelling_placed :
    spelling ⟨String.singleton op, .position n⟩ = String.ofList (text n ++ [op]) := by
  simp only [spelling, String.toList_singleton]

theorem spelling_span :
    spelling ⟨String.ofList [op, 'g'], .position n⟩ = String.ofList (op :: (text n ++ ['g'])) := by
  simp only [spelling, String.toList_ofList]

theorem isCount_of_mem_ownOperands (h : (op, .count n) ∈ ownOperands) :
    n = 1 ∧ op ∈ countOperators := by
  simp only [ownOperands, List.mem_cons, List.not_mem_nil, or_false, Prod.mk.injEq,
    Operand.count.injEq, reduceCtorEq, and_false, false_or] at h
  rcases h with ⟨rfl, rfl⟩ | ⟨rfl, rfl⟩ | ⟨rfl, rfl⟩ | ⟨rfl, rfl⟩
  all_goals exact ⟨rfl, by decide⟩

/-- **What is written out is spelled**, if any text spells it. -/
theorem spells_spelling (h : Spells cs phrase) : Spells phrase.spelling.toList phrase := by
  cases h with
  | bottom => exact .bottom
  | @named name hne hname =>
    have hspelling : (spelling ⟨"@", .named (String.ofList name)⟩).toList = '@' :: name := by
      simp [spelling]
    rw [hspelling]
    exact .named hne hname
  | @position ds n hn hle =>
    rw [show "g" = String.singleton 'g' from rfl, spelling_placed, String.toList_ofList]
    exact .position (isNumeral_text n) hle
  | @counted ds n op hn hle hop =>
    rw [spelling, String.toList_ofList, String.toList_singleton]
    exact .counted (isNumeral_text n) hle hop
  | @placed ds n op hn hle hop hcount =>
    rw [spelling_placed, String.toList_ofList]
    exact .placed (isNumeral_text n) hle hop hcount
  | @bare op operand hop =>
    cases operand with
    | count n =>
      -- a count of one is written out
      obtain ⟨rfl, hcount⟩ := isCount_of_mem_ownOperands hop
      rw [spelling, String.toList_ofList, String.toList_singleton]
      exact .counted (isNumeral_text 1) (by decide) hcount
    | relative offset =>
      rw [spelling, String.toList_singleton]
      exact .bare hop
    | special kind =>
      rw [spelling, String.toList_singleton]
      exact .bare hop
    | position n => simp [ownOperands] at hop
    | range n m => simp [ownOperands] at hop
    | named name => simp [ownOperands] at hop
  | @range ds ds' n m op hn hle hm hle' hop =>
    rw [spelling, String.toList_ofList, String.toList_singleton]
    exact .range (isNumeral_text n) hle (isNumeral_text m) hle' hop
  | @span ds n op hop hn hle =>
    rw [spelling_span, String.toList_ofList]
    exact .span hop (isNumeral_text n) hle

/-! ## 5. The parser -/

/-- **The order of the forms does not matter.** -/
theorem findSome?_of_perm {order : List (List Char → Option Phrase)} (hperm : order.Perm forms)
    (buffer : String) : (order.findSome? fun form => form buffer.toList) = parse buffer := by
  cases horder : order.findSome? fun form => form buffer.toList with
  | some phrase =>
    obtain ⟨form, hmem, hform⟩ := List.exists_of_findSome?_eq_some horder
    exact (parse_eq_some_iff.mpr (spells_of_mem_forms (hperm.mem_iff.mp hmem) hform)).symm
  | none =>
    rw [List.findSome?_eq_none_iff] at horder
    have hnone : parse buffer = none :=
      List.findSome?_eq_none_iff.mpr fun form hmem => horder form (hperm.mem_iff.mpr hmem)
    exact hnone.symm

/-- **The parser is exact.**  It finds in a buffer just the phrase that the buffer spells; every
phrase of the grammar is written out so that the parser finds it again; and the forms, tried in
any other order, find the same. -/
theorem parse_exact :
    (∀ buffer phrase, parse buffer = some phrase ↔ Spells buffer.toList phrase) ∧
    (∀ phrase, (∃ cs, Spells cs phrase) → parse phrase.spelling = some phrase) ∧
    ∀ order : List (List Char → Option Phrase), order.Perm forms →
      ∀ buffer, (order.findSome? fun form => form buffer.toList) = parse buffer := by
  refine ⟨fun buffer phrase => parse_eq_some_iff, ?_, fun order hperm => findSome?_of_perm hperm⟩
  rintro phrase ⟨cs, hspells⟩
  exact parse_eq_some_iff.mpr (spells_spelling hspells)

end Phrase

end ModalStack
