/-
# Commands typed as text

A command is typed character by character, and every character is one step: the engine has to
take it, the resolver has to await more behind all characters but the last, and the last one
runs the action.  So a command that a keymap reads in some text is carried out only if each
beginning of the text is pending (`Keymap.Awaits`).

* What a text amounts to is decided by three questions, in this order: is it a phrase that is
  bound, is it the beginning of a phrase, and where does a walk behind its digits lead
  (`Keymap.resolveText_of_phrase`, `Keymap.resolveText_of_beginning`,
  `Keymap.resolveText_of_walk`).
* A number with an operator behind it is a phrase only if the number can be read, and with
  more than an operator behind it it is none (`Phrase.Spells.of_numeral`).
* An engine that waits in normal mode takes every letter, digit and comma that counts.  It holds
  the text as long as more is awaited, and with the last character it asks its host for what the
  action asks for (`Engine.Waits.run_completes`).
-/
import ModalStack.Proofs.Completing
import ModalStack.Proofs.TypedPresses

namespace ModalStack

open Numeral

/-! ## 1. Numbers with something behind them -/

namespace Phrase

variable {ds ds' rest rest' front : List Char} {n m : Nat} {c op : Char} {phrase : Phrase}

/-- Two texts that begin with numerals are equal part by part. -/
theorem numeral_append_inj (h : IsNumeral ds n) (h' : IsNumeral ds' m)
    (hrest : leadingDigits rest = []) (hrest' : leadingDigits rest' = [])
    (heq : ds ++ rest = ds' ++ rest') : ds = ds' ∧ n = m ∧ rest = rest' := by
  obtain ⟨hlead, hafter⟩ : leadingDigits (ds ++ rest) = ds ∧ afterDigits (ds ++ rest) = rest :=
    Text.run_append h.digits hrest
  obtain ⟨hlead', hafter'⟩ :
      leadingDigits (ds' ++ rest') = ds' ∧ afterDigits (ds' ++ rest') = rest' :=
    Text.run_append h'.digits hrest'
  rw [heq] at hlead hafter
  obtain rfl : ds = ds' := hlead.symm.trans hlead'
  exact ⟨rfl, h.value_eq.symm.trans h'.value_eq, hafter.symm.trans hafter'⟩

theorem leadingDigits_singleton (h : c.isDigit = false) : leadingDigits [c] = [] :=
  leadingDigits_of_not_digit h

theorem isDigit_of_mem_spanOperators (h : op ∈ spanOperators) : op.isDigit = false := by
  have hall : spanOperators.all (fun op => !op.isDigit) = true := by decide
  simpa using List.all_eq_true.mp hall op h

/-- **What begins with a number** and has no comma behind it is that number with one operator:
a count, if the operator takes counts, and a position for other letters.  The number has to be
one that can be read. -/
theorem Spells.of_numeral (h : Spells (ds ++ rest) phrase) (hds : IsNumeral ds n)
    (hrest : leadingDigits rest = []) (hcomma : ',' ∉ rest) :
    ∃ op, rest = [op] ∧
      ((op ∈ countOperators ∧ n ≤ maxCount ∧ phrase = ⟨String.singleton op, .count n⟩) ∨
        (op ∉ countOperators ∧ n ≤ maxPosition ∧
          phrase = ⟨String.singleton op, .position n⟩)) := by
  obtain ⟨d, ds', hcons, hd⟩ := hds.exists_cons
  -- the forms that begin with no number begin with no digit, and a range has a comma
  generalize hcs : ds ++ rest = cs at h
  have hhead : cs = d :: (ds' ++ rest) := by rw [← hcs, hcons, List.cons_append]
  cases h with
  | bottom =>
    rw [← (List.cons.inj hhead).1] at hd
    exact absurd hd (by decide)
  | named _ _ =>
    rw [← (List.cons.inj hhead).1] at hd
    exact absurd hd (by decide)
  | position hn hle =>
    obtain ⟨rfl, rfl, rfl⟩ := numeral_append_inj hds hn hrest (by decide) hcs
    exact ⟨'g', rfl, .inr ⟨by decide, hle, rfl⟩⟩
  | counted hn hle hop =>
    obtain ⟨rfl, rfl, rfl⟩ := numeral_append_inj hds hn hrest
      (leadingDigits_singleton (isDigit_of_mem_countOperators hop)) hcs
    exact ⟨_, rfl, .inl ⟨hop, hle, rfl⟩⟩
  | placed hn hle hop hcount =>
    obtain ⟨rfl, rfl, rfl⟩ := numeral_append_inj hds hn hrest
      (leadingDigits_singleton (isDigit_eq_false_of_isAlpha hop)) hcs
    exact ⟨_, rfl, .inr ⟨hcount, hle, rfl⟩⟩
  | bare hop =>
    obtain ⟨rfl, -⟩ := List.cons.inj hhead
    have halpha := isAlpha_of_mem_ownOperands hop
    exact absurd hd (by simp [isDigit_eq_false_of_isAlpha halpha])
  | range hn _ _ _ _ =>
    obtain ⟨-, -, rfl⟩ := numeral_append_inj hds hn hrest
      (leadingDigits_of_not_digit (by decide)) hcs
    exact absurd List.mem_cons_self hcomma
  | span hop _ _ =>
    obtain ⟨rfl, -⟩ := List.cons.inj hhead
    exact absurd hd (by simp [isDigit_of_mem_spanOperators hop])

/-- The same where a letter comes first behind the number. -/
theorem Spells.of_letter {more : List Char} (h : Spells (ds ++ op :: more) phrase)
    (hds : IsNumeral ds n) (hop : op.isAlpha = true) (hmore : ',' ∉ more) :
    more = [] ∧
      ((op ∈ countOperators ∧ n ≤ maxCount ∧ phrase = ⟨String.singleton op, .count n⟩) ∨
        (op ∉ countOperators ∧ n ≤ maxPosition ∧
          phrase = ⟨String.singleton op, .position n⟩)) := by
  have hcomma : ',' ∉ op :: more := by
    intro hmem
    rcases List.mem_cons.mp hmem with rfl | hmem
    · exact absurd hop (by decide)
    · exact hmore hmem
  obtain ⟨op', heq, hcases⟩ := h.of_numeral hds
    (leadingDigits_of_not_digit (isDigit_eq_false_of_isAlpha hop)) hcomma
  obtain ⟨rfl, rfl⟩ := List.cons.inj heq
  exact ⟨rfl, hcases⟩

/-- The target behind an operator has to be one that can be read. -/
theorem Spells.target_le (h : Spells (op :: (ds ++ ['g'])) phrase) (hop : op ∈ spanOperators)
    (hds : IsNumeral ds n) : n ≤ maxPosition := by
  have hnot : ∀ {ds' tail : List Char} {k : Nat}, IsNumeral ds' k →
      op :: (ds ++ ['g']) ≠ ds' ++ tail := by
    intro ds' tail k hk heq
    obtain ⟨d, rest, rfl, hd⟩ := hk.exists_cons
    obtain ⟨rfl, -⟩ := List.cons.inj heq
    exact absurd hd (by simp [isDigit_of_mem_spanOperators hop])
  generalize hcs : op :: (ds ++ ['g']) = cs at h
  cases h with
  | bottom =>
    obtain ⟨rfl, -⟩ := List.cons.inj hcs
    exact absurd hop (by decide)
  | named _ _ =>
    obtain ⟨rfl, -⟩ := List.cons.inj hcs
    exact absurd hop (by decide)
  | position hn _ => exact absurd hcs (hnot hn)
  | counted hn _ _ => exact absurd hcs (hnot hn)
  | placed hn _ _ _ => exact absurd hcs (hnot hn)
  | bare _ => exact absurd (List.cons.inj hcs).2 (by simp)
  | range hn _ _ _ _ => exact absurd hcs (hnot hn)
  | span _ hn hle =>
    obtain ⟨rfl, -⟩ := List.append_singleton_inj.mp (List.cons.inj hcs).2
    rw [← hds.value_eq, hn.value_eq]
    exact hle

/-- Where no name is begun, a phrase ends in an operator. -/
theorem Spells.ends_in_operator (h : Spells (front ++ [c]) phrase)
    (hname : (front ++ [c]).head? ≠ some '@') : c.isAlpha = true ∨ c ∈ countOperators := by
  generalize hcs : front ++ [c] = cs at h hname
  cases h with
  | bottom =>
    have hlast : front ++ [c] = ['g'] ++ ['g'] := hcs
    obtain ⟨-, rfl⟩ := List.append_singleton_inj.mp hlast
    exact .inl rfl
  | named _ _ => exact absurd rfl hname
  | position _ _ =>
    obtain ⟨-, rfl⟩ := List.append_singleton_inj.mp hcs
    exact .inl rfl
  | counted _ _ hop =>
    obtain ⟨-, rfl⟩ := List.append_singleton_inj.mp hcs
    exact .inr hop
  | placed _ _ hop _ =>
    obtain ⟨-, rfl⟩ := List.append_singleton_inj.mp hcs
    exact .inl hop
  | @bare op operand hop =>
    have hlast : front ++ [c] = [] ++ [op] := hcs
    obtain ⟨-, rfl⟩ := List.append_singleton_inj.mp hlast
    exact .inl (isAlpha_of_mem_ownOperands hop)
  | @range ds₁ ds₂ _ _ op _ _ _ _ hop =>
    have hlast : front ++ [c] = (ds₁ ++ ',' :: ds₂) ++ [op] := by
      rw [hcs, List.append_assoc, List.cons_append]
    obtain ⟨-, rfl⟩ := List.append_singleton_inj.mp hlast
    exact .inl hop
  | @span ds₁ _ op _ _ _ =>
    have hlast : front ++ [c] = (op :: ds₁) ++ ['g'] := hcs
    obtain ⟨-, rfl⟩ := List.append_singleton_inj.mp hlast
    exact .inl rfl

end Phrase

/-! ## 2. What a text amounts to -/

namespace Keymap

variable {m : Keymap} {cs front ds rest : List Char} {c : Char} {phrase : Phrase} {a : Action}

/-- What a text amounts to that was typed character by character. -/
def resolveText (m : Keymap) (cs : List Char) : Resolution :=
  m.resolveKeys (cs.map String.singleton)

theorem joinTokens_chars (cs : List Char) :
    joinTokens (cs.map String.singleton) = String.ofList cs := by
  rw [← String.toList_inj, toList_joinTokens, String.toList_ofList]
  simp [List.flatMap_map]

theorem head?_chars_ne (hquote : cs.head? ≠ some '"') :
    (cs.map String.singleton).head? ≠ some "\"" := by
  rw [List.head?_map]
  intro heq
  obtain ⟨c, hc, hquoted⟩ := Option.map_eq_some_iff.mp heq
  obtain rfl : c = '"' := String.singleton_inj.mp hquoted
  exact hquote hc

/-- A text that begins with no quote has no register prefix. -/
theorem resolveText_eq (hquote : cs.head? ≠ some '"') :
    m.resolveText cs = m.resolveBody (String.ofList cs) none (cs.map String.singleton) := by
  rw [resolveText, resolveKeys, splitRegisterKeys_of_head_ne (head?_chars_ne hquote),
    joinTokens_chars]

/-- A phrase that the keymap binds is resolved. -/
theorem resolveText_of_phrase (hquote : cs.head? ≠ some '"') (h : Phrase.Spells cs phrase)
    (ha : m.actionFor? phrase = some a) :
    m.resolveText cs = .resolved ⟨a, String.ofList cs, String.ofList cs, some phrase,
      phraseCount (String.ofList cs) phrase, none⟩ := by
  have hspells : Phrase.Spells (joinTokens (cs.map String.singleton)).toList phrase := by
    rwa [joinTokens_chars, String.toList_ofList]
  rw [resolveText_eq hquote, resolveBody_of_action hspells ha, joinTokens_chars]

/-- A text that is no phrase leads to no action as one. -/
theorem phraseAction?_eq_none (h : ∀ phrase, Phrase.Spells cs phrase → m.actionFor? phrase = none) :
    m.phraseAction? (String.ofList cs) = none := by
  cases hparse : Phrase.parse (String.ofList cs) with
  | none => simp [phraseAction?, hparse]
  | some phrase =>
    have hspells := Phrase.parse_eq_some_iff.mp hparse
    rw [String.toList_ofList] at hspells
    simp [phraseAction?, hparse, h phrase hspells]

/-- The beginning of a phrase is pending, unless it is a phrase that the keymap binds. -/
theorem resolveText_of_beginning (hquote : cs.head? ≠ some '"')
    (h : ∀ phrase, Phrase.Spells cs phrase → m.actionFor? phrase = none)
    (hb : Phrase.Beginning cs) : m.resolveText cs = .pending := by
  have hpending : Phrase.isPending (String.ofList cs) = true :=
    Phrase.isPending_iff_beginning.mpr hb
  rw [resolveText_eq hquote, resolveBody, joinTokens_chars, phraseAction?_eq_none h, hpending]
  rfl

/-- What a walk amounts to, with the count that was typed before it. -/
def walked (body : String) (count : Option Nat) : Walk → Resolution
  | .found a => .resolved ⟨a, body, body, none, count, none⟩
  | .unfinished => .pending
  | .lost => .invalid

theorem isDigitToken_comp : isDigitToken ∘ String.singleton = Char.isDigit := by
  funext c
  simp [isDigitToken]

theorem all_isDigitToken (hds : ds.all Char.isDigit = true) :
    (ds.map String.singleton).all isDigitToken = true := by
  rw [List.all_map, isDigitToken_comp]
  exact hds

/-- In any other keys the digits are a count, and what follows them is walked through the
keymap. -/
theorem resolveKeys_of_walk {keys : List String} (hds : ds.all Char.isDigit = true)
    (hkeys : keys.takeWhile isDigitToken = [])
    (hquote : (ds.map String.singleton ++ keys).head? ≠ some "\"")
    (hnone : m.phraseAction? (joinTokens (ds.map String.singleton ++ keys)) = none)
    (hpending : Phrase.isPending (joinTokens (ds.map String.singleton ++ keys)) = false) :
    m.resolveKeys (ds.map String.singleton ++ keys)
      = walked (joinTokens (ds.map String.singleton ++ keys)) (count? ds) (m.walk keys) := by
  obtain ⟨htake, hdrop⟩ := Text.run_append (all_isDigitToken hds) hkeys
  rw [resolveKeys, splitRegisterKeys_of_head_ne hquote]
  simp only [resolveBody, hnone, hpending, htake, hdrop, joinTokens_chars, String.toList_ofList]
  cases m.walk keys with
  | found a => rfl
  | unfinished => rfl
  | lost => rfl

/-- So it is in a text. -/
theorem resolveText_of_walk (hds : ds.all Char.isDigit = true) (hrest : leadingDigits rest = [])
    (hquote : (ds ++ rest).head? ≠ some '"')
    (h : ∀ phrase, Phrase.Spells (ds ++ rest) phrase → m.actionFor? phrase = none)
    (hb : ¬ Phrase.Beginning (ds ++ rest)) :
    m.resolveText (ds ++ rest)
      = walked (String.ofList (ds ++ rest)) (count? ds) (m.walk (rest.map String.singleton)) := by
  have hpending : Phrase.isPending (String.ofList (ds ++ rest)) = false := by
    rw [← Bool.not_eq_true]
    exact fun hp => hb (Phrase.isPending_iff_beginning.mp hp)
  have hkeys : (rest.map String.singleton).takeWhile isDigitToken = [] := by
    rw [List.takeWhile_map, isDigitToken_comp]
    exact congrArg _ hrest
  have hjoin : joinTokens (ds.map String.singleton ++ rest.map String.singleton)
      = String.ofList (ds ++ rest) := by
    rw [← List.map_append, joinTokens_chars]
  have hwalk := resolveKeys_of_walk (m := m) hds hkeys
  rw [hjoin, ← List.map_append] at hwalk
  exact hwalk (head?_chars_ne hquote) (phraseAction?_eq_none h) hpending

/-! ## 3. Texts that are awaited -/

theorem all_isDecimal (h : ds.all Char.isDigit = true) : ds.all Text.isDecimal = true :=
  List.all_eq_true.mpr fun c hc => Text.isDecimal_of_isDigit (List.all_eq_true.mp h c hc)

/-- Behind each character of the text the keymap awaits more. -/
def Awaits (m : Keymap) (cs : List Char) : Prop :=
  ∀ front, front <+: cs → front ≠ [] → m.resolveText front = .pending

theorem awaits_nil : m.Awaits [] := fun _ hfront hne => absurd (List.prefix_nil.mp hfront) hne

theorem Awaits.append_char (h : m.Awaits front) (hc : m.resolveText (front ++ [c]) = .pending) :
    m.Awaits (front ++ [c]) := by
  intro start hstart hne
  rcases List.prefix_concat_iff.mp hstart with rfl | hstart
  · exact hc
  · exact h start hstart hne

/-- More digits are awaited as long as they continue the beginning of a phrase. -/
theorem Awaits.append_digits (h : m.Awaits front) (hds : ds.all Char.isDigit = true)
    (hhead : ∀ c, front.head? = some c → c ≠ '@' ∧ c ≠ '"')
    (hb : ∀ more, more ≠ [] → more.all Char.isDigit = true →
      Phrase.Beginning (front ++ more)) : m.Awaits (front ++ ds) := by
  -- from the end, since a digit is looked at together with all that was typed before it
  induction ds using List.reverseRecOn with
  | nil => rwa [List.append_nil]
  | append_singleton ds d ih =>
    obtain ⟨hds', hd⟩ := Phrase.all_append_singleton.mp hds
    have hfirst : ∀ c, (front ++ (ds ++ [d])).head? = some c → c ≠ '@' ∧ c ≠ '"' := by
      intro c hc
      rw [List.head?_append] at hc
      cases hfront : front.head? with
      | some c' =>
        rw [hfront] at hc
        obtain rfl := Option.some.inj hc
        exact hhead _ hfront
      | none =>
        rw [hfront, Option.none_or] at hc
        have hdigit : c.isDigit = true := List.all_eq_true.mp hds c (List.mem_of_head? hc)
        refine ⟨?_, ?_⟩
        all_goals
          rintro rfl
          exact absurd hdigit (by decide)
    have hlast : ∀ phrase, ¬ Phrase.Spells (front ++ (ds ++ [d])) phrase := by
      intro phrase hspells
      have hname : (front ++ (ds ++ [d])).head? ≠ some '@' := fun heq => (hfirst _ heq).1 rfl
      rw [← List.append_assoc] at hspells hname
      rcases hspells.ends_in_operator hname with halpha | hop
      · exact absurd hd (by simp [isDigit_eq_false_of_isAlpha halpha])
      · exact absurd hd (by simp [Phrase.isDigit_of_mem_countOperators hop])
    have hpending : m.resolveText (front ++ (ds ++ [d])) = .pending :=
      resolveText_of_beginning (fun heq => (hfirst _ heq).2 rfl)
        (fun phrase hspells => absurd hspells (hlast phrase)) (hb _ (by simp) hds)
    rw [← List.append_assoc] at hpending ⊢
    exact (ih hds').append_char hpending

/-- Digits are awaited, however many there are. -/
theorem awaits_digits (hds : ds.all Char.isDigit = true) : m.Awaits ds := by
  refine awaits_nil.append_digits hds (by simp) ?_
  intro more hne hmore
  exact .number hne (all_isDecimal hmore)

theorem awaits_numeral {n : Nat} (h : IsNumeral ds n) : m.Awaits ds := awaits_digits h.digits

/-- Behind a text that is awaited its keys are. -/
theorem Awaits.keys (h : m.Awaits cs) : m.AwaitsKeys (cs.map String.singleton) := by
  intro front hfront hne
  obtain ⟨start, hstart, rfl⟩ := List.prefix_map_iff.mp hfront
  exact h start hstart fun hnil => hne (by rw [hnil, List.map_nil])

end Keymap

/-! ## 4. A character is typed -/

/-- The character is a letter, a digit or a comma. -/
def IsPlain (c : Char) : Prop := c.isAlphanum = true ∨ c = ','

theorem isPlain_of_isDigit {c : Char} (h : c.isDigit = true) : IsPlain c :=
  .inl (by simp [Char.isAlphanum, h])

theorem isPlain_of_isAlpha {c : Char} (h : c.isAlpha = true) : IsPlain c :=
  .inl (by simp [Char.isAlphanum, h])

theorem IsPlain.continues {c : Char} (h : IsPlain c) : (KeyPress.plain c).Continues := by
  refine KeyPress.plain_continues fun hword => ?_
  rcases h with halnum | rfl
  · exact halnum
  · exact absurd hword (by decide +kernel)

/-- A letter is a command key of some sort, and those are taken. -/
theorem State.takes_of_isAlpha {s : State} {c : Char} (hmode : s.mode.Gathers)
    (hc : c.isAlpha = true) : s.takes .stack (.plain c) = true := by
  refine takes_of_not_text hmode ?_
  rw [KeyPress.category_of_char rfl rfl]
  intro htext
  obtain ⟨-, -, -, hnot⟩ := charCategory_eq_text htext
  exact absurd hc (by simp [hnot])

/-- The state with a text half typed. -/
def State.holding (s : State) (cs : List Char) : State :=
  { s with buffer := String.ofList cs, keys := cs.map String.singleton }

theorem State.holding_eq (s : State) (cs : List Char) :
    s.holding cs = s.holdingKeys ((cs.map KeyPress.plain).map KeyPress.token) := by
  rw [KeyPress.map_token_plain, holdingKeys, Keymap.joinTokens_chars]
  rfl

/-- What the host is asked to do while a text is typed: the commands sent, without news. -/
def Engine.requests {η : Type} (e : Engine η) (cs : List Char) : List Command :=
  (e.sending (typing cs)).filter fun c => !c.isNews

theorem Engine.requests_eq {η : Type} (e : Engine η) (cs : List Char) :
    e.requests cs = e.asked (pressing (cs.map .plain)) := by
  rw [pressing_plain]
  rfl

/-! ## 5. Engines that wait for a command -/

/-- A reachable engine with the default keymaps that waits in normal mode, with nothing half
typed. -/
structure Engine.Waits {η : Type} (setup : Setup) (e : Engine η) : Prop where
  keymaps : setup.keymaps = .default
  reachable : e.Reachable setup
  mode : e.state.mode = .normal
  buffer : e.state.buffer = ""

namespace Engine.Waits

variable {η : Type} {setup : Setup} {e : Engine η} {cs front : List Char} {c : Char}
  {r : Resolved}

theorem idle (h : e.Waits setup) : e.Idle := h.reachable.idle h.keymaps h.mode h.buffer

theorem one_le_position (h : e.Waits setup) : 1 ≤ e.state.position :=
  (h.reachable.bounded h.keymaps).one_le

theorem position_le (h : e.Waits setup) (hd : 1 ≤ e.state.depth) :
    e.state.position ≤ e.state.depth := by
  have hle : e.state.position ≤ max 1 e.state.depth := (h.reachable.bounded h.keymaps).le_depth
  omega

theorem selection_eq_none (h : e.Waits setup) : e.state.selection = none := by
  refine (h.reachable.bounded h.keymaps).selection_eq_none ?_
  rw [h.mode]
  decide

theorem continues_of_plain (hplain : ∀ c ∈ cs, IsPlain c) :
    ∀ press ∈ cs.map KeyPress.plain, press.Continues := by
  intro press hpress
  obtain ⟨c, hc, rfl⟩ := List.mem_map.mp hpress
  exact (hplain c hc).continues

theorem awaitsKeys_plain (ha : Keymap.defaultNormal.Awaits cs) :
    Keymap.defaultNormal.AwaitsKeys ((cs.map KeyPress.plain).map KeyPress.token) := by
  rw [KeyPress.map_token_plain]
  exact ha.keys

/-- What a text amounts to is what its keys amount to. -/
theorem resolveKeys_plain (m : Keymap) (front : List Char) (c : Char) :
    m.resolveKeys ((front.map KeyPress.plain).map KeyPress.token ++ [(KeyPress.plain c).token])
      = m.resolveText (front ++ [c]) := by
  rw [KeyPress.map_token_plain, KeyPress.token_plain, Keymap.resolveText, List.map_append,
    List.map_singleton]

/-- **What is completed is run**: behind a text that is awaited, a character resolves. -/
theorem run_completes (h : e.Waits setup) (hplain : ∀ c ∈ front, IsPlain c) (hc : IsPlain c)
    (ha : Keymap.defaultNormal.Awaits front)
    (hr : Keymap.defaultNormal.resolveText (front ++ [c]) = .resolved r) :
    (e.run (typing (front ++ [c]))).state
        = ((e.state.holding front).execute e.settings r).1 ∧
      e.requests (front ++ [c])
        = (r.reaction (e.state.holding front) e.settings).command.toList := by
  rw [← resolveKeys_plain] at hr
  rw [← pressing_plain, requests_eq, List.map_append, List.map_singleton, State.holding_eq]
  exact h.idle.run_completes (continues_of_plain hplain) hc.continues (awaitsKeys_plain ha) hr

/-- **What nothing can come of is dropped**: behind a text that is awaited, a letter does not
lead anywhere. -/
theorem run_rejected (h : e.Waits setup) (hplain : ∀ c ∈ front, IsPlain c)
    (hc : c.isAlpha = true) (ha : Keymap.defaultNormal.Awaits front)
    (hr : Keymap.defaultNormal.resolveText (front ++ [c]) = .invalid) :
    (e.run (typing (front ++ [c]))).state = e.state ∧ e.requests (front ++ [c]) = [] := by
  -- nothing counts here, but a letter is taken anyway
  have htakes : (e.state.holdingKeys ((front.map KeyPress.plain).map KeyPress.token)).takes .stack
      (.plain c) = true := State.takes_of_isAlpha (.inl h.mode) hc
  have hfront := h.idle.run_awaits (continues_of_plain hplain) (awaitsKeys_plain ha)
  have hstep := h.idle.run_press hfront (isPlain_of_isAlpha hc).continues.ne_escape htakes
  rw [State.gather_holdingKeys, resolveKeys_plain, hr] at hstep
  rw [← pressing_plain, requests_eq, List.map_append, List.map_singleton, h.idle.state_eq]
  exact hstep

end Engine.Waits

end ModalStack
