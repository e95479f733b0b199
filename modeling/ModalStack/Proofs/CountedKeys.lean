/-
# Keys behind digits

Digits that are typed before a command are looked at in one of two ways.  Where they are a phrase
together with what follows, the count is the number of the phrase; otherwise they are taken off,
and what follows them is walked through the keymap.  Which of the two it is depends on the key, on
the keymap, and on whether the number can still be read, but it makes no difference to what is
found: a key that is bound to an action, and an operator that waits for its own key, are read as
they are without the digits, and the count is the one that the digits spell, if they spell one
(`Keymap.completes_key`, `Keymap.completes_doubled`).  There may also be no digits at all.
-/
import ModalStack.Proofs.TypedText

namespace ModalStack

open Numeral

/-! ## 1. Phrases behind digits -/

/-- The number of a position, as far as it is a count, is the count that its digits spell. -/
theorem Numeral.IsNumeral.count?_eq {ds : List Char} {n : Nat} (h : IsNumeral ds n) :
    count? ds = (Operand.position n).numeric.filter (0 < ·) := by
  have hnumeric : (Operand.position n).numeric = if n ≤ maxCount then some n else none := rfl
  rw [count?, hnumeric]
  by_cases hle : n ≤ maxCount
  · rw [read?_eq_some_iff.mpr ⟨h, hle⟩, if_pos hle]
  · have hread : read? maxCount ds = none := by
      cases hcase : read? maxCount ds with
      | none => rfl
      | some k =>
        obtain ⟨hk, hle'⟩ := read?_eq_some_iff.mp hcase
        exact absurd (hk.value_eq.symm.trans h.value_eq ▸ hle') hle
    rw [hread, if_neg hle]

theorem beginsWithDigit_ofList (c : Char) (cs : List Char) :
    beginsWithDigit (String.ofList (c :: cs)) = c.isDigit := by
  simp [beginsWithDigit]

theorem ne_of_isAlpha {c d : Char} (h : c.isAlpha = true) (hd : d.isAlpha = false) : c ≠ d := by
  rintro rfl
  exact absurd h (by simp [hd])

namespace Phrase

variable {ds more : List Char} {op : Char} {phrase : Phrase}

/-- The phrase is the operator, with what the digits before it come to. -/
structure Counts (phrase : Phrase) (ds : List Char) (op : Char) : Prop where
  operator : phrase.operator = String.singleton op
  count : phraseCount (String.ofList (ds ++ [op])) phrase = count? ds
  rangeless : phrase.operand.isRange = false
  position : ∀ n, phrase.operand = .position n → IsNumeral ds n

/-- Operators have neither ranges nor positions of their own. -/
theorem ownOperand_plain {operand : Operand} (h : (op, operand) ∈ ownOperands) :
    operand.isRange = false ∧ ∀ n, operand ≠ .position n := by
  have hall : ∀ e ∈ ownOperands, e.2.isRange = false ∧ ∀ n, e.2 ≠ .position n := by
    simp [ownOperands, Operand.isRange]
  exact hall _ h

/-- **A phrase that begins with digits**, or with no digits, and has none of the signs of other
forms in it, is an operator that counts them. -/
theorem Spells.behind_digits (h : Spells (ds ++ op :: more) phrase)
    (hds : ds.all Char.isDigit = true) (hop : op.isDigit = false) (hname : op ≠ '@')
    (hcomma : ',' ∉ op :: more) (hg : ds = [] → 'g' ∉ more) :
    more = [] ∧ phrase.Counts ds op := by
  cases ds with
  | nil =>
    have hg' : 'g' ∉ more := hg rfl
    have hnot : ∀ {ds' tail : List Char} {k : Nat}, IsNumeral ds' k → op :: more ≠ ds' ++ tail := by
      intro ds' tail k hk heq
      obtain ⟨d, rest, rfl, hd⟩ := hk.exists_cons
      obtain ⟨rfl, -⟩ := List.cons.inj heq
      exact absurd hd (by simp [hop])
    rw [List.nil_append] at h
    generalize hcs : op :: more = cs at h
    cases h with
    | bottom =>
      obtain ⟨-, rfl⟩ := List.cons.inj hcs
      exact absurd List.mem_cons_self hg'
    | named _ _ => exact absurd (List.cons.inj hcs).1 hname
    | position hn _ => exact absurd hcs (hnot hn)
    | counted hn _ _ => exact absurd hcs (hnot hn)
    | placed hn _ _ _ => exact absurd hcs (hnot hn)
    | @bare _ operand hown =>
      obtain ⟨rfl, rfl⟩ := List.cons.inj hcs
      obtain ⟨hrange, hposition⟩ := ownOperand_plain hown
      refine ⟨rfl, rfl, ?_, hrange, fun n hn => absurd hn (hposition n)⟩
      rw [List.nil_append, phraseCount, beginsWithDigit_ofList, hop]
      rfl
    | range hn _ _ _ _ => exact absurd hcs (hnot hn)
    | span _ _ _ =>
      obtain ⟨-, rfl⟩ := List.cons.inj hcs
      exact absurd (by simp) hg'
  | cons d ds' =>
    have hn : IsNumeral (d :: ds') (value (d :: ds')) := ⟨by simp, hds, rfl⟩
    obtain ⟨op', heq, hcases⟩ := h.of_numeral hn (leadingDigits_of_not_digit hop) hcomma
    obtain ⟨rfl, rfl⟩ := List.cons.inj heq
    have hdigit : d.isDigit = true := List.all_eq_true.mp hds d List.mem_cons_self
    have hbegins : beginsWithDigit (String.ofList (d :: ds' ++ [op])) = true := by
      rw [List.cons_append, beginsWithDigit_ofList, hdigit]
    refine ⟨rfl, ?_⟩
    rcases hcases with ⟨-, hle, rfl⟩ | ⟨-, -, rfl⟩
    · refine ⟨rfl, ?_, rfl, fun _ hposition => absurd hposition (by simp)⟩
      rw [phraseCount, hbegins, if_pos rfl, hn.count?_eq, Operand.numeric, Operand.numeric,
        if_pos hle]
    · refine ⟨rfl, ?_, rfl, ?_⟩
      · rw [phraseCount, hbegins, if_pos rfl, hn.count?_eq]
      · intro n hposition
        rw [← Operand.position.inj hposition]
        exact hn

/-- **Digits with something behind them are no beginning of a phrase**, unless it is one without
them. -/
theorem isPending_behind_digits (hds : ds.all Char.isDigit = true)
    (hop : Text.isDecimal op = false) (hcomma : op ≠ ',') :
    isPending (String.ofList (ds ++ op :: more))
      = (ds.isEmpty && isPendingOperator (op :: more)) := by
  have hrest : (op :: more).takeWhile Text.isDecimal = [] :=
    List.takeWhile_cons_of_neg (by simp [hop])
  obtain ⟨hlead, hafter⟩ := Text.run_append (Keymap.all_isDecimal hds) hrest
  have hrange : isPendingRange (ds ++ op :: more) = false := by
    unfold isPendingRange leadingDecimals afterDecimals
    rw [hlead, hafter, Bool.and_eq_false_iff]
    right
    split
    · exact absurd (by assumption) (List.cons_ne_nil _ _)
    · rename_i heq
      exact absurd (List.cons.inj heq).1 hcomma
    · rfl
  rw [isPending_ofList, hrange, Bool.false_or]
  cases ds with
  | nil => rfl
  | cons d ds' =>
    have hd : d.isDigit = true := List.all_eq_true.mp hds d List.mem_cons_self
    rw [List.isEmpty_cons, Bool.false_and, List.cons_append]
    unfold isPendingOperator
    split
    · rename_i heq
      exact absurd (List.cons.inj heq).2 (by simp)
    · rename_i heq
      rw [(List.cons.inj heq).1] at hd
      exact absurd hd (by decide)
    · rename_i heq
      rw [(List.cons.inj heq).1] at hd
      rw [Bool.and_eq_false_iff, decide_eq_false_iff_not]
      exact .inl fun hmem => absurd hd (by simp [isDigit_of_mem_spanOperators hmem])
    · rfl

end Phrase

/-- **Digits do not make a command repeatable**, nor keep it from being so. -/
theorem Change.isRepeatable_behind_digits {ds more : List Char} {op : Char}
    (hds : ds.all Char.isDigit = true) (hop : Text.isDecimal op = false) (hcomma : op ≠ ',') :
    isRepeatable (String.ofList (ds ++ op :: more))
      = isRepeatable (String.ofList (op :: more)) := by
  have hrest : (op :: more).takeWhile Text.isDecimal = [] :=
    List.takeWhile_cons_of_neg (by simp [hop])
  -- what comes after a range comes after digits, since there is no comma
  have hafter : ∀ ds' : List Char, ds'.all Char.isDigit = true →
      afterRange (ds' ++ op :: more) = op :: more ∧
        Phrase.afterDecimals (ds' ++ op :: more) = op :: more := by
    intro ds' hds'
    obtain ⟨hlead, hafter⟩ := Text.run_append (Keymap.all_isDecimal hds') hrest
    refine ⟨?_, hafter⟩
    unfold afterRange Phrase.leadingDecimals Phrase.afterDecimals
    rw [hlead, hafter]
    split
    · rename_i hnil
      rw [hnil, List.nil_append]
    · split
      · rename_i heq
        exact absurd (List.cons.inj heq).1 hcomma
      · rfl
  obtain ⟨hrange, hdecimals⟩ := hafter ds hds
  obtain ⟨hrange', hdecimals'⟩ := hafter [] rfl
  rw [List.nil_append] at hrange' hdecimals'
  simp only [isRepeatable, String.toList_ofList, hrange, hdecimals, hrange', hdecimals']

/-! ## 2. Keys behind digits -/

/-- The resolved action is this function in this register, with what the digits before the keys
come to. -/
structure Resolved.Counts (r : Resolved) (ds : List Char) (keys : List String)
    (register : Option String) (run : Invocation → Reaction) : Prop where
  run : r.action.run = run
  repeatable : Change.isRepeatable r.body = Change.isRepeatable (joinTokens keys)
  count : r.count = count? ds
  register : r.register = register
  rangeless : ∀ phrase, r.phrase = some phrase → phrase.operand.isRange = false
  position : ∀ phrase n, r.phrase = some phrase → phrase.operand = .position n → IsNumeral ds n

namespace Keymap

variable {m inner : Keymap} {ds more : List Char} {keys : List String} {t : String} {op : Char}
  {a : Action}

/-- The text can be a command in itself behind digits: it does not begin with a digit of any
script, has none of the signs of phrases in it, and begins neither a phrase nor a register
prefix. -/
def standsAlone : List Char → Bool
  | op :: more =>
    !Text.isDecimal op && op ∉ ['@', ',', '"'] && more.all (· ∉ ['g', ','])
      && !Phrase.isPendingOperator (op :: more)
  | [] => false

/-- What `standsAlone` tests. -/
structure StandsAlone (op : Char) (more : List Char) : Prop where
  not_decimal : Text.isDecimal op = false
  not_name : op ≠ '@'
  not_comma : op ≠ ','
  not_quote : op ≠ '"'
  rest : ∀ c ∈ more, c ≠ 'g' ∧ c ≠ ','
  not_pending : Phrase.isPendingOperator (op :: more) = false

theorem standsAlone_cons : standsAlone (op :: more) = true ↔ StandsAlone op more := by
  constructor
  · intro h
    simp only [standsAlone, Bool.and_eq_true, Bool.not_eq_true', decide_eq_true_eq, List.mem_cons,
      List.not_mem_nil, or_false, not_or, List.all_eq_true] at h
    obtain ⟨⟨⟨hdecimal, hname, hcomma, hquote⟩, hrest⟩, hpending⟩ := h
    exact ⟨hdecimal, hname, hcomma, hquote, hrest, hpending⟩
  · rintro ⟨hdecimal, hname, hcomma, hquote, hrest, hpending⟩
    simpa [standsAlone, hdecimal, hname, hcomma, hquote, hpending] using hrest

theorem joinTokens_behind_digits (ds : List Char) (keys : List String) :
    joinTokens (ds.map String.singleton ++ keys)
      = String.ofList (ds ++ (joinTokens keys).toList) := by
  rw [← String.toList_inj, toList_joinTokens, List.flatMap_append, ← toList_joinTokens,
    ← toList_joinTokens, joinTokens_chars, String.toList_ofList, String.toList_ofList]

theorem isDigitToken_of_cons (ht : t.toList = op :: more) (hop : op.isDigit = false) :
    isDigitToken t = false := by
  unfold isDigitToken
  split
  · rename_i c hc
    rw [ht] at hc
    rw [← (List.cons.inj hc).1]
    exact hop
  · rfl

namespace StandsAlone

theorem not_digit (h : StandsAlone op more) : op.isDigit = false := by
  rw [← Bool.not_eq_true]
  exact fun hd => absurd (Text.isDecimal_of_isDigit hd) (by simp [h.not_decimal])

/-- Keys with such a text have no register prefix, behind digits neither. -/
theorem head?_ne (h : StandsAlone op more) (htext : (joinTokens keys).toList = op :: more)
    (hds : ds.all Char.isDigit = true) : (ds.map String.singleton ++ keys).head? ≠ some "\"" := by
  refine Text.head?_run_append_ne (all_isDigitToken hds) (by decide) fun hquote => ?_
  obtain ⟨rest, rfl⟩ := List.head?_eq_some_iff.mp hquote
  rw [joinTokens_cons] at htext
  have hop : '"' = op := (List.cons.inj htext).1
  exact h.not_quote hop.symm

theorem repeatable (h : StandsAlone op more) (htext : (joinTokens keys).toList = op :: more)
    (hds : ds.all Char.isDigit = true) :
    Change.isRepeatable (joinTokens (ds.map String.singleton ++ keys))
      = Change.isRepeatable (joinTokens keys) := by
  have hjoin : joinTokens keys = String.ofList (op :: more) := by
    rw [← htext, String.ofList_toList]
  rw [joinTokens_behind_digits, htext, hjoin,
    Change.isRepeatable_behind_digits hds h.not_decimal h.not_comma]

/-- A phrase with such a text behind its digits is an operator that counts them. -/
theorem counts (h : StandsAlone op more) {phrase : Phrase} (hds : ds.all Char.isDigit = true)
    (hspells : Phrase.Spells (ds ++ op :: more) phrase) : more = [] ∧ phrase.Counts ds op :=
  hspells.behind_digits hds h.not_digit h.not_name
    (List.not_mem_cons_of_ne_of_not_mem (Ne.symm h.not_comma) fun hmem => (h.rest _ hmem).2 rfl)
    fun _ hmem => (h.rest _ hmem).1 rfl

/-- A walk behind digits that ends at an action. -/
theorem resolveKeys_walked (h : StandsAlone op more)
    (htext : (joinTokens keys).toList = op :: more) (hds : ds.all Char.isDigit = true)
    (hkeys : keys.takeWhile isDigitToken = [])
    (hnone : m.phraseAction? (joinTokens (ds.map String.singleton ++ keys)) = none)
    (hwalk : m.walk keys = .found a) :
    ∃ r, m.resolveKeys (ds.map String.singleton ++ keys) = .resolved r ∧
      r.Counts ds keys none a.run := by
  have hpending : Phrase.isPending (joinTokens (ds.map String.singleton ++ keys)) = false := by
    rw [joinTokens_behind_digits, htext,
      Phrase.isPending_behind_digits hds h.not_decimal h.not_comma, h.not_pending, Bool.and_false]
  have hresolve := resolveKeys_of_walk hds hkeys (h.head?_ne htext hds) hnone hpending
  rw [hwalk] at hresolve
  exact ⟨_, hresolve, rfl, h.repeatable htext hds, rfl, rfl, by simp, by simp⟩

/-- A phrase with digits before it that is bound to an action. -/
theorem resolveKeys_counted (h : StandsAlone op []) (htext : (joinTokens keys).toList = [op])
    (hds : ds.all Char.isDigit = true) {phrase : Phrase}
    (hspells : Phrase.Spells (ds ++ [op]) phrase) (ha : m.actionFor? phrase = some a) :
    ∃ r, m.resolveKeys (ds.map String.singleton ++ keys) = .resolved r ∧
      r.Counts ds keys none a.run := by
  have hjoin : joinTokens (ds.map String.singleton ++ keys) = String.ofList (ds ++ [op]) := by
    rw [joinTokens_behind_digits, htext]
  obtain ⟨-, hcounts⟩ := h.counts hds hspells
  have hspells' : Phrase.Spells (joinTokens (ds.map String.singleton ++ keys)).toList phrase := by
    rwa [hjoin, String.toList_ofList]
  rw [resolveKeys, splitRegisterKeys_of_head_ne (h.head?_ne htext hds)]
  refine ⟨_, resolveBody_of_action hspells' ha, rfl, h.repeatable htext hds, ?_, rfl, ?_, ?_⟩
  · rw [hjoin]
    exact hcounts.count
  · intro phrase' heq
    rw [← Option.some.inj heq]
    exact hcounts.rangeless
  · intro phrase' n heq
    rw [← Option.some.inj heq]
    exact hcounts.position n

end StandsAlone

/-- **A key that is bound to an action**, behind digits. -/
theorem completes_key (hds : ds.all Char.isDigit = true) (ht : standsAlone t.toList = true)
    (hb : m.get? t = some (.action a)) :
    ∃ r, m.Completes (ds.map String.singleton ++ [t]) r ∧ r.Counts ds [t] none a.run := by
  obtain ⟨op, more, htoList⟩ : ∃ op more, t.toList = op :: more := by
    refine List.exists_cons_of_ne_nil fun hnil => ?_
    rw [hnil] at ht
    exact absurd ht (by decide)
  rw [htoList] at ht
  have halone : StandsAlone op more := standsAlone_cons.mp ht
  have htext : (joinTokens [t]).toList = op :: more := by
    rw [toList_joinTokens, List.flatMap_singleton, htoList]
  have hresolves : ∃ r, m.resolveKeys (ds.map String.singleton ++ [t]) = .resolved r ∧
      r.Counts ds [t] none a.run := by
    -- whether the digits are a phrase with the key depends on their number, but what is found
    -- does not
    cases hphrase : m.phraseAction? (joinTokens (ds.map String.singleton ++ [t])) with
    | none =>
      refine halone.resolveKeys_walked htext hds ?_ hphrase ?_
      · exact List.takeWhile_cons_of_neg (by simp [isDigitToken_of_cons htoList halone.not_digit])
      · simp [Keymap.walk, hb]
    | some found =>
      obtain ⟨phrase, hparse, -⟩ := Option.bind_eq_some_iff.mp hphrase
      have hspells := Phrase.parse_eq_some_iff.mp hparse
      rw [joinTokens_behind_digits, htext, String.toList_ofList] at hspells
      obtain ⟨rfl, hcounts⟩ := halone.counts hds hspells
      have hkey : t = String.singleton op := by
        rw [← String.toList_inj, htoList, String.toList_singleton]
      refine halone.resolveKeys_counted htext hds hspells ?_
      simp only [actionFor?, hcounts.operator, ← hkey, hb]
  obtain ⟨r, hresolve, hcounts⟩ := hresolves
  refine ⟨r, ⟨?_, hresolve⟩, hcounts⟩
  rw [List.dropLast_concat]
  exact (awaits_digits hds).keys

/-- An operator waits for its own key, behind digits too. -/
theorem resolveText_waits (hds : ds.all Char.isDigit = true) (hop : op.isAlpha = true)
    (hb : m.get? (String.singleton op) = some (.submap inner)) :
    m.resolveText (ds ++ [op]) = .pending := by
  have hdigit : op.isDigit = false := isDigit_eq_false_of_isAlpha hop
  have hquote : (ds ++ [op]).head? ≠ some '"' :=
    Text.head?_run_append_ne hds (by decide) (by simpa using ne_of_isAlpha hop (by decide))
  have hnone : ∀ phrase, Phrase.Spells (ds ++ [op]) phrase → m.actionFor? phrase = none := by
    intro phrase hspells
    obtain ⟨-, hcounts⟩ := hspells.behind_digits hds hdigit (ne_of_isAlpha hop (by decide))
      (by simpa using Ne.symm (ne_of_isAlpha hop (by decide))) (by simp)
    simp [actionFor?, hcounts.operator, hb, hcounts.rangeless]
  -- some operators begin phrases, and so are awaited; the others are walked to where they wait
  by_cases hbeginning : Phrase.Beginning (ds ++ [op])
  · exact resolveText_of_beginning hquote hnone hbeginning
  · rw [resolveText_of_walk hds (leadingDigits_of_not_digit hdigit) hquote hnone hbeginning]
    simp [walked, Keymap.walk, hb]

/-- **An operator that waits for its own key**, behind digits. -/
theorem completes_doubled (hds : ds.all Char.isDigit = true) (hop : op.isAlpha = true)
    (hops : standsAlone [op, op] = true) (hb : m.get? (String.singleton op) = some (.submap inner))
    (ha : inner.get? (String.singleton op) = some (.action a)) :
    ∃ r, m.Completes (ds.map String.singleton ++ [String.singleton op, String.singleton op]) r ∧
      r.Counts ds [String.singleton op, String.singleton op] none a.run := by
  have halone : StandsAlone op [op] := standsAlone_cons.mp hops
  have htext : (joinTokens [String.singleton op, String.singleton op]).toList = [op, op] := by
    simp [toList_joinTokens]
  have hkeys : [String.singleton op, String.singleton op].takeWhile isDigitToken = [] :=
    List.takeWhile_cons_of_neg
      (by simp [isDigitToken_of_cons (String.toList_singleton op) halone.not_digit])
  have hnone : m.phraseAction? (String.ofList (ds ++ [op, op])) = none :=
    phraseAction?_eq_none fun phrase hspells =>
      absurd (halone.counts hds hspells).1 (List.cons_ne_nil _ _)
  have hwalk : m.walk [String.singleton op, String.singleton op] = .found a := by
    simp [Keymap.walk, hb, ha]
  rw [← htext, ← joinTokens_behind_digits] at hnone
  obtain ⟨r, hresolve, hcounts⟩ := halone.resolveKeys_walked htext hds hkeys hnone hwalk
  refine ⟨r, ⟨?_, hresolve⟩, hcounts⟩
  have hfront : (ds.map String.singleton ++ [String.singleton op, String.singleton op]).dropLast
      = ds.map String.singleton ++ [String.singleton op] := by
    rw [List.dropLast_append_of_ne_nil (by simp)]
    rfl
  have hwaits : m.resolveText (ds ++ [op]) = .pending := resolveText_waits hds hop hb
  rw [resolveText, List.map_append, List.map_singleton] at hwaits
  rw [hfront]
  exact awaitsKeys_append_singleton.mpr ⟨(awaits_digits hds).keys, hwaits⟩

end Keymap

end ModalStack
