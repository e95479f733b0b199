/-
# How phrases end

A phrase ends in an operator, except where it is a name.  So if a digit comes last, or any other
character of a name, then what stands before it is empty or could grow into a phrase already
(`Phrase.ends_of_parse`).  The same holds of the beginnings of phrases
(`Phrase.ends_of_isPending`), which end in digits more often.

Of each form of a phrase only its outline is needed (`Phrase.Shape`), and of the beginnings of
ranges that they are a numeral, or two with a comma between them (`Phrase.isPendingRange_iff`).
-/
import ModalStack.Phrase.Pending
import ModalStack.Proofs.PhraseGrammar

namespace ModalStack

/-! ## 1. How phrases end -/

namespace Phrase

open Numeral

/-- The ASCII letters and the signs that stand in phrases. -/
def IsSign (c : Char) : Prop := c.isAlpha = true ∨ c ∈ [',', '@', '+', '-', '*', '/']

/-- What phrases look like: they are names, or end in an operator. -/
inductive Shape : List Char → Prop
  | named {name : List Char} : name ≠ [] → name.all Text.isWord = true → Shape ('@' :: name)
  | operated (front : List Char) {op : Char} : IsSign op → Shape (front ++ [op])

variable {cs front : List Char} {c op : Char} {phrase : Phrase}

theorem isSign_of_mem_countOperators (h : op ∈ countOperators) : IsSign op := by
  simp only [countOperators, List.mem_cons, List.not_mem_nil, or_false] at h
  rcases h with rfl | rfl | rfl | rfl | rfl | rfl | rfl | rfl
  · exact .inl rfl
  · exact .inl rfl
  · exact .inl rfl
  · exact .inl rfl
  all_goals exact .inr (by decide)

/-- **The shape of phrases**, form by form. -/
theorem Spells.shape (h : Spells cs phrase) : Shape cs := by
  cases h with
  | bottom => exact .operated ['g'] (.inl rfl)
  | named hne hname => exact .named hne hname
  | position => exact .operated _ (.inl rfl)
  | counted _ _ hop => exact .operated _ (isSign_of_mem_countOperators hop)
  | placed _ _ hop => exact .operated _ (.inl hop)
  | bare hop => exact .operated [] (.inl (isAlpha_of_mem_ownOperands hop))
  | @range ds ds' n m op _ _ _ _ hop =>
    rw [← List.cons_append, ← List.append_assoc]
    exact .operated (ds ++ ',' :: ds') (.inl hop)
  | @span ds n op =>
    rw [← List.cons_append]
    exact .operated (op :: ds) (.inl rfl)

/-! ## 2. How beginnings of phrases end -/

theorem leadingDecimals_append (cs : List Char) :
    leadingDecimals cs ++ afterDecimals cs = cs :=
  List.takeWhile_append_dropWhile

theorem all_leadingDecimals (cs : List Char) : (leadingDecimals cs).all Text.isDecimal = true :=
  List.all_takeWhile

/-- Decimals are read up to where something else begins. -/
theorem decimals_append {start rest : List Char} (h : start.all Text.isDecimal = true)
    (hrest : leadingDecimals rest = []) :
    leadingDecimals (start ++ rest) = start ∧ afterDecimals (start ++ rest) = rest :=
  Text.run_append h hrest

/-- The shape of ranges that are being typed. -/
theorem isPendingRange_iff :
    isPendingRange cs = true ↔ ∃ start, start ≠ [] ∧ start.all Text.isDecimal = true ∧
      (cs = start ∨ ∃ stop, stop.all Text.isDecimal = true ∧ cs = start ++ ',' :: stop) := by
  unfold isPendingRange
  constructor
  · intro h
    obtain ⟨hne, hrest⟩ := (Bool.and_eq_true _ _).mp h
    have hcs : leadingDecimals cs ++ afterDecimals cs = cs := leadingDecimals_append cs
    refine ⟨leadingDecimals cs, by simpa using hne, all_leadingDecimals cs, ?_⟩
    split at hrest
    · rename_i hafter
      rw [hafter, List.append_nil] at hcs
      exact .inl hcs.symm
    · rename_i stop hafter
      rw [hafter] at hcs
      exact .inr ⟨stop, hrest, hcs.symm⟩
    · exact absurd hrest (by simp)
  · rintro ⟨start, hne, hstart, heq⟩
    rcases heq with rfl | ⟨stop, hstop, rfl⟩
    · have hnil : leadingDecimals [] = [] := rfl
      obtain ⟨hlead, hafter⟩ := decimals_append hstart hnil
      rw [List.append_nil] at hlead hafter
      simp [hlead, hafter, hne]
    · have hcomma : leadingDecimals (',' :: stop) = [] :=
        List.takeWhile_cons_of_neg (by decide +kernel)
      obtain ⟨hlead, hafter⟩ := decimals_append hstart hcomma
      simp [hlead, hafter, hne, hstop]

theorem isPending_ofList :
    isPending (String.ofList cs) = (isPendingRange cs || isPendingOperator cs) := by
  simp [isPending]

theorem isPending_range {start : List Char} (hne : start ≠ [])
    (h : start.all Text.isDecimal = true) :
    isPending (String.ofList start) = true := by
  rw [isPending_ofList, isPendingRange_iff.mpr ⟨start, hne, h, .inl rfl⟩, Bool.true_or]

theorem isPending_secondEnd {start stop : List Char} (hne : start ≠ [])
    (h : start.all Text.isDecimal = true) (hstop : stop.all Text.isDecimal = true) :
    isPending (String.ofList (start ++ ',' :: stop)) = true := by
  rw [isPending_ofList, isPendingRange_iff.mpr ⟨start, hne, h, .inr ⟨stop, hstop, rfl⟩⟩,
    Bool.true_or]

theorem isPending_name {name : List Char} (h : name.all Text.isWord = true) :
    isPending (String.ofList ('@' :: name)) = true := by
  rw [isPending_ofList, isPendingOperator, h, Bool.or_true]

theorem isPending_span {stop : List Char} (hop : op ∈ spanOperators)
    (h : stop.all Text.isDecimal = true) :
    isPending (String.ofList (op :: stop)) = true := by
  have hoperator : isPendingOperator (op :: stop) = true := by
    simp only [spanOperators, List.mem_cons, List.not_mem_nil, or_false] at hop
    rcases hop with rfl | rfl | rfl
    all_goals simp [isPendingOperator, spanOperators, h]
  rw [isPending_ofList, hoperator, Bool.or_true]

/-! ## 3. How both end -/

/-- A character can come last: a sign, or a character of a name behind nothing or behind what
could already grow into a phrase. -/
def Ends (front : List Char) (c : Char) : Prop :=
  IsSign c ∨ Text.isWord c = true ∧ (front = [] ∨ isPending (String.ofList front) = true)

theorem all_append_singleton {p : Char → Bool} :
    (front ++ [c]).all p = true ↔ front.all p = true ∧ p c = true := by
  simp

theorem ends_of_shape (h : Shape (front ++ [c])) : Ends front c := by
  generalize hcs : front ++ [c] = cs at h
  cases h with
  | @named name hne hname =>
    -- the name has a last character, and the rest of it is a name that is being typed
    rcases List.append_eq_cons_iff.mp hcs with ⟨-, hc⟩ | ⟨name', rfl, hname'⟩
    · exact absurd (List.cons.inj hc).2.symm hne
    · rw [hname', all_append_singleton] at hname
      exact .inr ⟨hname.2, .inr (isPending_name hname.1)⟩
  | operated front' hop =>
    obtain ⟨-, rfl⟩ := List.append_singleton_inj.mp hcs
    exact .inl hop

/-- **How a phrase ends.** -/
theorem ends_of_parse (h : (parse (String.ofList (front ++ [c]))).isSome = true) :
    Ends front c := by
  obtain ⟨phrase, hphrase⟩ := Option.isSome_iff_exists.mp h
  have hshape : Shape (String.ofList (front ++ [c])).toList :=
    (parse_eq_some_iff.mp hphrase).shape
  rw [String.toList_ofList] at hshape
  exact ends_of_shape hshape

theorem ends_of_isPendingRange (h : isPendingRange (front ++ [c]) = true) : Ends front c := by
  obtain ⟨start, hne, hstart, heq⟩ := isPendingRange_iff.mp h
  rcases heq with rfl | ⟨stop, hstop, heq⟩
  · obtain ⟨hfront, hc⟩ := all_append_singleton.mp hstart
    refine .inr ⟨Text.isWord_of_isDecimal hc, ?_⟩
    by_cases hnil : front = []
    · exact .inl hnil
    · exact .inr (isPending_range hnil hfront)
  · rcases List.eq_nil_or_concat stop with rfl | ⟨stop', d, rfl⟩
    · obtain ⟨-, rfl⟩ := List.append_singleton_inj.mp heq
      exact .inl (.inr (by decide))
    · rw [List.concat_eq_append] at heq hstop
      obtain ⟨hstop', hd⟩ := all_append_singleton.mp hstop
      have hsplit : front ++ [c] = (start ++ ',' :: stop') ++ [d] := by
        rw [heq, List.append_assoc, List.cons_append]
      obtain ⟨rfl, rfl⟩ := List.append_singleton_inj.mp hsplit
      exact .inr ⟨Text.isWord_of_isDecimal hd, .inr (isPending_secondEnd hne hstart hstop')⟩

theorem ends_of_isPendingOperator (h : isPendingOperator (front ++ [c]) = true) :
    Ends front c := by
  generalize hcs : front ++ [c] = cs at h
  unfold isPendingOperator at h
  split at h
  · have hg : front ++ [c] = [] ++ ['g'] := hcs
    obtain ⟨-, rfl⟩ := List.append_singleton_inj.mp hg
    exact .inl (.inl rfl)
  · rename_i name
    rcases List.append_eq_cons_iff.mp hcs with ⟨-, hc⟩ | ⟨name', rfl, hname'⟩
    · obtain ⟨rfl, -⟩ := List.cons.inj hc
      exact .inl (.inr (by decide))
    · rw [hname', all_append_singleton] at h
      exact .inr ⟨h.2, .inr (isPending_name h.1)⟩
  · rename_i op stop _ _
    obtain ⟨hop, hstop⟩ := (Bool.and_eq_true _ _).mp h
    have hmem : op ∈ spanOperators := by simpa using hop
    rcases List.append_eq_cons_iff.mp hcs with ⟨-, hc⟩ | ⟨stop', rfl, hstop'⟩
    · obtain ⟨rfl, -⟩ := List.cons.inj hc
      simp only [spanOperators, List.mem_cons, List.not_mem_nil, or_false] at hmem
      rcases hmem with rfl | rfl | rfl
      all_goals exact .inl (.inl rfl)
    · rw [hstop', all_append_singleton] at hstop
      exact .inr ⟨Text.isWord_of_isDecimal hstop.2, .inr (isPending_span hmem hstop.1)⟩
  · exact absurd h (by simp)

/-- **How the beginning of a phrase ends.** -/
theorem ends_of_isPending (h : isPending (String.ofList (front ++ [c])) = true) :
    Ends front c := by
  rw [isPending_ofList, Bool.or_eq_true] at h
  rcases h with h | h
  · exact ends_of_isPendingRange h
  · exact ends_of_isPendingOperator h

end Phrase

end ModalStack
