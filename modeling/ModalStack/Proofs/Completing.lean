/-
# Commands that can still be completed

Keys are pending where more of them are awaited, and that is decided in three ways: a register has
no name yet or nothing behind it, the text looks like the beginning of a phrase, or a walk through
the keymap is not at its end (`Keymap.pending_cases`).  Under the default keymaps there are always
further keys that complete the command, with one exception: visual mode binds no key to names, and
a name is being typed (`Engine.Reachable.completable_iff`).

A register prefix and a number are completed by a yank, an operator that was typed once by itself,
and every other beginning by writing the phrase to its end, which the keymap then has to bind.  In
visual mode it need not bind targets behind operators: there an operator acts at once, so nothing
is ever typed behind it.

Numbers that are too large to be read are left out.  The test for beginnings knows no limits, so a
range that begins with such a number waits for ever, like the name in visual mode
(`Engine.Reachable.pending_forever`).
-/
import ModalStack.Proofs.PhraseBeginnings
import ModalStack.Proofs.TypedKeys

namespace ModalStack

/-! ## 1. What completes in a keymap -/

/-- The key is bound to an action. -/
def Keymap.Binds (m : Keymap) (key : String) : Prop := ∃ a, m.get? key = some (.action a)

/-- The binding is an action, or waits for nothing but the same letter once more. -/
def Binding.isDoubled (key : String) : Binding → Bool
  | .action _ => true
  | .submap m =>
    match m.entries, key.toList with
    | [(k, .action _)], [c] => k == key && c.isAlpha
    | _, _ => false

theorem Binding.exists_of_isDoubled {key : String} {next : Keymap}
    (h : (Binding.submap next).isDoubled key = true) :
    ∃ c a, key = String.singleton c ∧ c.isAlpha = true ∧ next.entries = [(key, .action a)] := by
  simp only [Binding.isDoubled] at h
  split at h
  · rename_i k a c hentries hkey
    obtain ⟨hk, hc⟩ := (Bool.and_eq_true _ _).mp h
    obtain rfl := eq_of_beq hk
    refine ⟨c, a, ?_, hc, hentries⟩
    rw [← String.toList_inj, hkey, String.toList_singleton]
  · exact absurd h (by simp)

/-- Some further keys complete a command. -/
def Keymap.Completable (m : Keymap) (keys : List String) : Prop :=
  ∃ more r, (∀ t ∈ more, IsToken t) ∧ m.resolveKeys (keys ++ more) = .resolved r

namespace Keymap

variable {m : Keymap} {keys rest : List String} {first raw : String} {register : Option String}
  {phrase : Phrase} {cs more : List Char}

theorem actionFor?_of_binds (h : m.Binds phrase.operator) : ∃ a, m.actionFor? phrase = some a := by
  obtain ⟨a, ha⟩ := h
  exact ⟨a, by simp only [actionFor?, ha]⟩

/-- A phrase that leads to an action is resolved to it. -/
theorem resolveBody_of_action {a : Action} (h : Phrase.Spells (joinTokens keys).toList phrase)
    (ha : m.actionFor? phrase = some a) :
    m.resolveBody raw register keys = .resolved ⟨a, raw, joinTokens keys, some phrase,
      phraseCount (joinTokens keys) phrase, register⟩ := by
  have hparse : Phrase.parse (joinTokens keys) = some phrase := Phrase.parse_eq_some_iff.mpr h
  have hphrase : m.phraseAction? (joinTokens keys) = some (phrase, a) := by
    simp only [phraseAction?, hparse, Option.bind_some, ha, Option.map_some]
  rw [resolveBody, hphrase]

/-- A phrase that the keymap binds is resolved. -/
theorem resolveBody_of_spells (h : Phrase.Spells (joinTokens keys).toList phrase)
    (hb : m.Binds phrase.operator) : ∃ r, m.resolveBody raw register keys = .resolved r := by
  obtain ⟨a, ha⟩ := actionFor?_of_binds hb
  exact ⟨_, resolveBody_of_action h ha⟩

/-- So is a walk that reaches its end, if nothing longer is awaited. -/
theorem resolveBody_of_walk (h : ¬ Phrase.Beginning (joinTokens keys).toList) {a : Action}
    (hw : m.walk (keys.dropWhile isDigitToken) = .found a) :
    ∃ r, m.resolveBody raw register keys = .resolved r := by
  have hpending : Phrase.isPending (joinTokens keys) = false := by
    rw [← Bool.not_eq_true, ← String.ofList_toList (s := joinTokens keys)]
    exact fun hp => h (Phrase.isPending_iff_beginning.mp hp)
  simp only [resolveBody]
  split
  · exact ⟨_, rfl⟩
  · rw [hpending, hw]
    exact ⟨_, rfl⟩

/-- What completes the keys behind a register prefix completes the command. -/
theorem completable_of_body (hsplit : splitRegisterKeys keys = .split register (first :: rest))
    (more : List Char)
    (h : ∀ raw, ∃ r, m.resolveBody raw register (first :: rest ++ more.map String.singleton)
      = .resolved r) : m.Completable keys := by
  obtain ⟨front, rfl, hextend⟩ := splitRegisterKeys_extend hsplit
  obtain ⟨r, hr⟩ := h (joinTokens (front ++ first :: rest ++ more.map String.singleton))
  refine ⟨more.map String.singleton, r, ?_, ?_⟩
  · intro t ht
    obtain ⟨c, -, rfl⟩ := List.mem_map.mp ht
    exact isToken_singleton c
  · rw [resolveKeys, List.append_assoc, List.cons_append, hextend]
    rw [List.append_assoc, List.cons_append] at hr
    exact hr

theorem joinTokens_append_chars (keys : List String) (more : List Char) :
    (joinTokens (keys ++ more.map String.singleton)).toList
      = (joinTokens keys).toList ++ more := by
  simp [toList_joinTokens, List.flatMap_map]

/-- A keymap with one entry, an action, leaves no walk open. -/
theorem walk_ne_unfinished {key : String} {a : Action} (h : m.entries = [(key, .action a)]) :
    m.walk keys ≠ .unfinished := by
  intro hwalk
  cases keys with
  | nil => exact absurd hwalk (by simp [Keymap.walk])
  | cons t ts =>
    rw [Keymap.walk] at hwalk
    split at hwalk
    · exact absurd hwalk (by simp)
    · split at hwalk
      · exact absurd hwalk (by simp)
      · exact absurd hwalk (by simp)
    · rename_i inner hinner
      have hmem := KeyTable.mem_of_get? hinner
      rw [h] at hmem
      exact absurd (Prod.mk.inj (List.mem_singleton.mp hmem)).2 (by simp)

/-- A walk that is not at its end waits for a letter that was typed once. -/
theorem exists_of_walk_unfinished (hd : ∀ e ∈ m.entries, e.2.isDoubled e.1 = true)
    (h : m.walk keys = .unfinished) :
    ∃ c a, keys = [String.singleton c] ∧ c.isAlpha = true ∧
      m.walk [String.singleton c, String.singleton c] = .found a := by
  cases keys with
  | nil => exact absurd h (by simp [Keymap.walk])
  | cons key rest =>
    rw [Keymap.walk] at h
    split at h
    · exact absurd h (by simp)
    · split at h
      · exact absurd h (by simp)
      · exact absurd h (by simp)
    · rename_i next hb
      obtain ⟨c, a, rfl, hc, hentries⟩ :=
        Binding.exists_of_isDoubled (hd _ (KeyTable.mem_of_get? hb))
      cases rest with
      | nil =>
        have hinner : next.get? (String.singleton c) = some (.action a) := by
          simp [KeyTable.get?, hentries]
        exact ⟨c, a, rfl, hc, by simp [Keymap.walk, hb, hinner]⟩
      | cons t ts => exact absurd h (walk_ne_unfinished hentries)

end Keymap

/-! ## 2. Pending commands -/

theorem isDigitToken_iff {t : String} :
    isDigitToken t = true ↔ ∃ c, t.toList = [c] ∧ c.isDigit = true := by
  unfold isDigitToken
  constructor
  · intro h
    split at h
    · rename_i c hc
      exact ⟨c, hc, h⟩
    · exact absurd h (by simp)
  · rintro ⟨c, hc, hdigit⟩
    rw [hc]
    exact hdigit

theorem mem_joinTokens {keys : List String} {c : Char} :
    c ∈ (joinTokens keys).toList ↔ ∃ t ∈ keys, c ∈ t.toList := by
  rw [toList_joinTokens, List.mem_flatMap]

/-- Digits joined are digits. -/
theorem all_isDigit_joinTokens {keys : List String}
    (h : ∀ t ∈ keys, isDigitToken t = true) : (joinTokens keys).toList.all Char.isDigit = true := by
  refine List.all_eq_true.mpr fun c hc => ?_
  obtain ⟨t, ht, hmem⟩ := mem_joinTokens.mp hc
  obtain ⟨d, htoken, hdigit⟩ := isDigitToken_iff.mp (h t ht)
  rw [htoken] at hmem
  rw [List.mem_singleton.mp hmem]
  exact hdigit

theorem all_isDigit_takeWhile (keys : List String) :
    (joinTokens (keys.takeWhile isDigitToken)).toList.all Char.isDigit = true :=
  all_isDigit_joinTokens (List.all_eq_true.mp List.all_takeWhile)

/-- The text of some keys is their digits and what is behind them. -/
theorem joinTokens_digits (keys : List String) :
    (joinTokens keys).toList = (joinTokens (keys.takeWhile isDigitToken)).toList
      ++ (joinTokens (keys.dropWhile isDigitToken)).toList := by
  simp only [toList_joinTokens, ← List.flatMap_append, List.takeWhile_append_dropWhile]

/-- Tokens whose text is plain are single characters. -/
theorem single_of_plain {keys : List String} (hk : ∀ t ∈ keys, IsToken t)
    (hhyphen : '-' ∉ (joinTokens keys).toList) (hbracket : '<' ∉ (joinTokens keys).toList) :
    ∀ t ∈ keys, ∃ c, t.toList = [c] :=
  fun t ht => (hk t ht).single (fun hc => hhyphen (mem_joinTokens.mpr ⟨t, ht, hc⟩))
    fun hc => hbracket (mem_joinTokens.mpr ⟨t, ht, hc⟩)

/-- The keys of what looks like a phrase are single characters. -/
theorem single_of_beginning {keys : List String} (hk : ∀ t ∈ keys, IsToken t)
    (h : Phrase.Beginning (joinTokens keys).toList) : ∀ t ∈ keys, ∃ c, t.toList = [c] := by
  refine single_of_plain hk (fun hmem => ?_) fun hmem => ?_
  · exact absurd (h.chars hmem) (by decide +kernel)
  · exact absurd (h.chars hmem) (by decide +kernel)

namespace Keymap

variable {m : Keymap} {keys rest : List String} {first : String} {register : Option String}

/-- What every default keymap has in which keys are gathered. -/
structure Finishes (m : Keymap) : Prop where
  yank : m.Binds "Y"
  doubled : ∀ e ∈ m.entries, e.2.isDoubled e.1 = true

/-- **What is pending**: a register prefix, the beginning of a phrase, or a walk. -/
theorem pending_cases (h : m.resolveKeys keys = .pending) :
    splitRegisterKeys keys = .incomplete ∨
      ∃ register first rest, splitRegisterKeys keys = .split register (first :: rest) ∧
        (Phrase.Beginning (joinTokens (first :: rest)).toList ∨
          m.walk ((first :: rest).dropWhile isDigitToken) = .unfinished) := by
  unfold resolveKeys at h
  split at h
  · rename_i hsplit
    exact .inl hsplit
  · exact absurd h (by simp)
  · rename_i register body hsplit
    have hbody : Phrase.Beginning (joinTokens body).toList ∨
        m.walk (body.dropWhile isDigitToken) = .unfinished := by
      simp only [resolveBody] at h
      split at h
      · exact absurd h (by simp)
      · split at h
        · rename_i hpending
          rw [← String.ofList_toList (s := joinTokens body)] at hpending
          exact .inl (Phrase.isPending_iff_beginning.mp hpending)
        · split at h
          · exact absurd h (by simp)
          · rename_i hwalk
            exact .inr hwalk
          · exact absurd h (by simp)
    cases body with
    | nil =>
      rcases hbody with hbeginning | hwalk
      · exact absurd (Phrase.isPending_iff_beginning.mpr hbeginning) (by decide +kernel)
      · exact absurd hwalk (by simp [Keymap.walk])
    | cons first rest => exact .inr ⟨register, first, rest, hsplit, hbody⟩

theorem Binds.walk {key : String} (h : m.Binds key) : ∃ a, m.walk [key] = .found a := by
  obtain ⟨a, ha⟩ := h
  exact ⟨a, by simp [Keymap.walk, ha]⟩

/-- A register prefix is completed by a name and a yank. -/
theorem completable_of_incomplete (hm : m.Finishes) (h : splitRegisterKeys keys = .incomplete) :
    m.Completable keys := by
  obtain ⟨a, ha⟩ := hm.yank.walk
  have hnamed : ∀ name, isRegisterToken name = true →
      ∃ r, m.resolveKeys ["\"", name, "Y"] = .resolved r := by
    intro name hname
    have hsplit : splitRegisterKeys ["\"", name, "Y"] = .split (some name) ["Y"] := by
      simp [splitRegisterKeys, hname]
    simp only [resolveKeys, hsplit]
    refine resolveBody_of_walk (fun hbeginning => ?_) ha
    exact absurd (Phrase.isPending_iff_beginning.mpr hbeginning) (by decide +kernel)
  rcases splitRegisterKeys_eq_incomplete h with rfl | ⟨name, hname, rfl⟩
  · obtain ⟨r, hr⟩ := hnamed "a" (by decide)
    refine ⟨["a", "Y"], r, ?_, hr⟩
    simp only [List.mem_cons, List.not_mem_nil, or_false]
    rintro t (rfl | rfl)
    · exact isToken_singleton 'a'
    · exact isToken_singleton 'Y'
  · obtain ⟨r, hr⟩ := hnamed name hname
    refine ⟨["Y"], r, ?_, hr⟩
    intro t ht
    rw [List.mem_singleton.mp ht]
    exact isToken_singleton 'Y'

/-- A number is completed by a yank, however large it is. -/
theorem completable_of_number (hm : m.Finishes) (hk : ∀ t ∈ first :: rest, IsToken t)
    (hsplit : splitRegisterKeys keys = .split register (first :: rest))
    (h : (joinTokens (first :: rest)).toList.all Char.isDigit = true) : m.Completable keys := by
  obtain ⟨a, ha⟩ := hm.yank.walk
  have hdigits : ∀ c ∈ (joinTokens (first :: rest)).toList, c.isDigit = true :=
    List.all_eq_true.mp h
  have hnot : ∀ c, c.isDigit = false → c ∉ (joinTokens (first :: rest)).toList :=
    fun c hc hmem => absurd (hdigits c hmem) (by simp [hc])
  have htokens : ∀ t ∈ first :: rest, isDigitToken t = true := by
    intro t ht
    obtain ⟨c, hc⟩ := single_of_plain hk (hnot '-' (by decide)) (hnot '<' (by decide)) t ht
    exact isDigitToken_iff.mpr
      ⟨c, hc, hdigits c (mem_joinTokens.mpr ⟨t, ht, by rw [hc]; exact List.mem_cons_self⟩)⟩
  refine completable_of_body hsplit ['Y'] fun raw => resolveBody_of_walk ?_ (a := a) ?_
  · rw [joinTokens_append_chars]
    intro hbeginning
    rcases hbeginning.letter (by decide) with ⟨hnil, -⟩ | hhead
    · rw [joinTokens_cons] at hnil
      exact absurd (List.append_eq_nil_iff.mp hnil).1 (hk first List.mem_cons_self).toList_ne_nil
    · exact absurd (List.mem_of_head? hhead) (hnot '@' (by decide))
  · rw [List.dropWhile_append_of_pos htokens]
    exact ha

/-- An operator is completed by itself. -/
theorem completable_of_walk (hm : m.Finishes)
    (hsplit : splitRegisterKeys keys = .split register (first :: rest))
    (h : m.walk ((first :: rest).dropWhile isDigitToken) = .unfinished) : m.Completable keys := by
  obtain ⟨c, a, hdrop, hc, hwalk⟩ := exists_of_walk_unfinished hm.doubled h
  refine completable_of_body hsplit [c] fun raw => resolveBody_of_walk ?_ (a := a) ?_
  · -- before the operator stand digits, and behind it now stands a letter
    have htext : (joinTokens (first :: rest)).toList
        = (joinTokens ((first :: rest).takeWhile isDigitToken)).toList ++ [c] := by
      rw [joinTokens_digits, hdrop, toList_joinTokens [_], List.flatMap_singleton,
        String.toList_singleton]
    have hdigits := all_isDigit_takeWhile (first :: rest)
    rw [joinTokens_append_chars, htext, List.append_assoc]
    intro hbeginning
    rcases hbeginning.letter hc with ⟨-, hrest⟩ | hhead
    · simp [Phrase.not_isDecimal_of_isAlpha hc] at hrest
    · exact absurd (List.all_eq_true.mp hdigits '@' (List.mem_of_head? hhead)) (by decide)
  · rw [List.dropWhile_append, hdrop]
    exact hwalk

/-- The beginning of a phrase is completed to a phrase, if the keymap binds it. -/
theorem completable_of_beginning (hm : m.Finishes) (hk : ∀ t ∈ first :: rest, IsToken t)
    (hdigits : ∀ t ∈ first :: rest, ∀ c, t.toList = [c] → Text.isDecimal c = true →
      c.isDigit = true)
    (hsplit : splitRegisterKeys keys = .split register (first :: rest))
    (h : Phrase.Beginning (joinTokens (first :: rest)).toList)
    (hfits : ∀ ds ∈ Phrase.endNumerals (joinTokens (first :: rest)).toList,
      Numeral.value ds ≤ maxPosition)
    (hb : m.Binds (Phrase.completingOperator (joinTokens (first :: rest)).toList)) :
    m.Completable keys := by
  have hascii : ∀ c ∈ (joinTokens (first :: rest)).toList, Text.isDecimal c = true →
      c.isDigit = true := by
    intro c hc hdecimal
    obtain ⟨t, ht, hmem⟩ := mem_joinTokens.mp hc
    obtain ⟨d, hd⟩ := single_of_beginning hk h t ht
    rw [hd] at hmem
    rw [List.mem_singleton.mp hmem] at hdecimal ⊢
    exact hdigits t ht d hd hdecimal
  rcases h.completed hascii hfits with hnumber | ⟨more, phrase, -, hspells, hoperator⟩
  · exact completable_of_number hm hk hsplit hnumber
  · rw [← joinTokens_append_chars] at hspells
    rw [← hoperator] at hb
    exact completable_of_body hsplit more fun raw => resolveBody_of_spells hspells hb

/-- **What is pending can be completed**, if the keymap binds the operators of what has begun. -/
theorem completable_of_pending (hm : m.Finishes) (h : m.resolveKeys keys = .pending)
    (hk : ∀ t ∈ keys, IsToken t)
    (hdigits : ∀ t ∈ keys, ∀ c, t.toList = [c] → Text.isDecimal c = true → c.isDigit = true)
    (hfits : ∀ ds ∈ Phrase.endNumerals (joinTokens (typedBody keys)).toList,
      Numeral.value ds ≤ maxPosition)
    (hb : Phrase.Beginning (joinTokens (typedBody keys)).toList →
      m.Binds (Phrase.completingOperator (joinTokens (typedBody keys)).toList)) :
    m.Completable keys := by
  rcases pending_cases h with hsplit | ⟨register, first, rest, hsplit, hbody⟩
  · exact completable_of_incomplete hm hsplit
  · have htyped : typedBody keys = first :: rest := by simp only [typedBody, hsplit]
    rw [htyped] at hfits hb
    have hsub : first :: rest ⊆ keys := by
      obtain ⟨front, rfl, -⟩ := splitRegisterKeys_extend hsplit
      exact List.subset_append_right front _
    rcases hbody with hbeginning | hwalk
    · exact completable_of_beginning hm (fun t ht => hk t (hsub ht))
        (fun t ht => hdigits t (hsub ht)) hsplit hbeginning hfits (hb hbeginning)
    · exact completable_of_walk hm hsplit hwalk

end Keymap

/-! ## 3. The default keymaps -/

namespace Keymap

theorem defaultNormal_finishes : defaultNormal.Finishes where
  yank := ⟨_, rfl⟩
  doubled := by decide

theorem defaultVisual_finishes : defaultVisual.Finishes where
  yank := ⟨_, rfl⟩
  doubled := by decide

/-- The default keymap of a mode in which keys are gathered. -/
theorem default_finishes {mode : Mode} {m : Keymap} (hmode : mode.Gathers)
    (hm : Keymaps.default.forMode? mode = some m) : m.Finishes := by
  rcases hmode with rfl | rfl
  · obtain rfl := Option.some.inj hm
    exact defaultNormal_finishes
  · obtain rfl := Option.some.inj hm
    exact defaultVisual_finishes

/-- Normal mode binds everything that a beginning can become. -/
theorem defaultNormal_binds (cs : List Char) :
    defaultNormal.Binds (Phrase.completingOperator cs) := by
  unfold Phrase.completingOperator
  split
  · exact ⟨_, rfl⟩
  · exact ⟨_, rfl⟩
  · split
    · rename_i hop
      simp only [Phrase.spanOperators, List.mem_cons, List.not_mem_nil, or_false] at hop
      rcases hop with rfl | rfl | rfl
      · exact ⟨_, rfl⟩
      · exact ⟨_, rfl⟩
      · exact ⟨_, rfl⟩
    · exact ⟨_, rfl⟩
  · exact ⟨_, rfl⟩

/-- Visual mode binds all of it but names and targets. -/
theorem defaultVisual_binds {cs : List Char} (hname : cs.head? ≠ some '@')
    (hspan : ∀ op ∈ Phrase.spanOperators, cs.head? ≠ some op) :
    defaultVisual.Binds (Phrase.completingOperator cs) := by
  unfold Phrase.completingOperator
  split
  · exact absurd rfl hname
  · exact ⟨_, rfl⟩
  · split
    · rename_i hop
      exact absurd rfl (hspan _ hop)
    · exact ⟨_, rfl⟩
  · exact ⟨_, rfl⟩

/-- Visual mode does not wait behind an operator: it acts on the selection at once. -/
theorem defaultVisual_resolves {keys : List String} {register : Option String} {op : Char}
    (hop : op ∈ Phrase.spanOperators)
    (hsplit : splitRegisterKeys keys = .split register [String.singleton op]) :
    defaultVisual.resolveKeys keys ≠ .pending := by
  obtain ⟨n, hown, hbound⟩ : ∃ n, (op, .count n) ∈ Phrase.ownOperands ∧
      defaultVisual.Binds (String.singleton op) := by
    simp only [Phrase.spanOperators, List.mem_cons, List.not_mem_nil, or_false] at hop
    rcases hop with rfl | rfl | rfl
    · exact ⟨1, by decide, _, rfl⟩
    · exact ⟨1, by decide, _, rfl⟩
    · exact ⟨1, by decide, _, rfl⟩
  have hspells : Phrase.Spells (joinTokens [String.singleton op]).toList
      ⟨String.singleton op, .count n⟩ := by
    rw [toList_joinTokens, List.flatMap_singleton, String.toList_singleton]
    exact .bare hown
  obtain ⟨r, hr⟩ : ∃ r, defaultVisual.resolveBody (joinTokens keys) register
      [String.singleton op] = .resolved r :=
    resolveBody_of_spells hspells hbound
  rw [resolveKeys, hsplit]
  simp [hr]

/-- No key of visual mode begins as a name does. -/
theorem defaultVisual_get?_name {key : String} (h : key.toList.head? = some '@') :
    defaultVisual.get? key = none := by
  have hnone : ∀ e ∈ defaultVisual.entries, e.1.toList.head? ≠ some '@' := by decide
  exact Option.eq_none_iff_forall_ne_some.mpr fun b hb =>
    hnone (key, b) (KeyTable.mem_of_get? hb) h

theorem defaultVisual_resolveBody_name {raw first : String} {rest : List String}
    {register : Option String} (h : first.toList.head? = some '@') (r : Resolved) :
    defaultVisual.resolveBody raw register (first :: rest) ≠ .resolved r := by
  obtain ⟨tail, htail⟩ : ∃ tail, first.toList = '@' :: tail := List.head?_eq_some_iff.mp h
  have hphrase : defaultVisual.phraseAction? (joinTokens (first :: rest)) = none := by
    cases hparse : Phrase.parse (joinTokens (first :: rest)) with
    | none => simp [phraseAction?, hparse]
    | some phrase =>
      have hspells := Phrase.parse_eq_some_iff.mp hparse
      rw [joinTokens_cons, htail, List.cons_append] at hspells
      have hoperator : phrase.operator = "@" := hspells.operator_of_name
      have hunbound : defaultVisual.get? "@" = none := defaultVisual_get?_name (by decide)
      have hnone : defaultVisual.actionFor? phrase = none := by
        simp only [actionFor?, hoperator, hunbound]
      simp [phraseAction?, hparse, hnone]
  have hdigit : ¬ isDigitToken first = true := by
    intro hdigit
    obtain ⟨c, hc, hc'⟩ := isDigitToken_iff.mp hdigit
    rw [htail] at hc
    obtain ⟨rfl, -⟩ := List.cons.inj hc
    exact absurd hc' (by decide)
  have hwalk : defaultVisual.walk ((first :: rest).dropWhile isDigitToken) = .lost := by
    rw [List.dropWhile_cons_of_neg hdigit]
    simp only [Keymap.walk, defaultVisual_get?_name h]
  simp only [resolveBody, hphrase, hwalk]
  split
  · simp
  · simp

/-- **Names lead nowhere in visual mode**, whatever else is typed. -/
theorem defaultVisual_not_resolved {keys : List String} (hk : ∀ t ∈ keys, t.toList ≠ [])
    (h : (joinTokens (typedBody keys)).toList.head? = some '@') (more : List String)
    (r : Resolved) : defaultVisual.resolveKeys (keys ++ more) ≠ .resolved r := by
  cases hsplit : splitRegisterKeys keys with
  | incomplete => exact absurd h (by simp [typedBody, hsplit, joinTokens])
  | invalid => exact absurd h (by simp [typedBody, hsplit, joinTokens])
  | split register body =>
    cases body with
    | nil => exact absurd h (by simp [typedBody, hsplit, joinTokens])
    | cons first rest =>
      obtain ⟨front, rfl, hextend⟩ := splitRegisterKeys_extend hsplit
      have hfirst : first.toList.head? = some '@' := by
        obtain ⟨c, cs, hc⟩ := List.exists_cons_of_ne_nil (hk first (by simp))
        simp only [typedBody, hsplit, joinTokens_cons, hc] at h
        rw [hc]
        exact h
      rw [resolveKeys, List.append_assoc, List.cons_append, hextend]
      exact defaultVisual_resolveBody_name hfirst r

/-- **Nor does a range whose first end is too large**, in a keymap that does not bind the comma. -/
theorem not_resolved_of_large {m : Keymap} {ds : List Char} {n : Nat} (hcomma : m.get? "," = none)
    (hds : Numeral.IsNumeral ds n) (hn : maxPosition < n) (more : List String) (r : Resolved) :
    m.resolveKeys (ds.map String.singleton ++ "," :: more) ≠ .resolved r := by
  have htokens : ∀ t ∈ ds.map String.singleton, isDigitToken t = true := by
    intro t ht
    obtain ⟨c, hc, rfl⟩ := List.mem_map.mp ht
    exact isDigitToken_iff.mpr
      ⟨c, String.toList_singleton c, List.all_eq_true.mp hds.digits c hc⟩
  have hsplit : splitRegisterKeys (ds.map String.singleton ++ "," :: more)
      = .split none (ds.map String.singleton ++ "," :: more) := by
    obtain ⟨d, rest, rfl, hd⟩ := hds.exists_cons
    have hquote : String.singleton d ≠ "\"" := by
      intro heq
      obtain rfl : d = '"' := String.singleton_inj.mp heq
      exact absurd hd (by decide)
    simp [splitRegisterKeys, hquote]
  have htext : (joinTokens (ds.map String.singleton ++ "," :: more)).toList
      = ds ++ ',' :: (joinTokens more).toList := by
    simp [toList_joinTokens, List.flatMap_map]
  have hphrase : m.phraseAction? (joinTokens (ds.map String.singleton ++ "," :: more)) = none := by
    cases hparse : Phrase.parse (joinTokens (ds.map String.singleton ++ "," :: more)) with
    | none => simp [phraseAction?, hparse]
    | some phrase =>
      have hspells := Phrase.parse_eq_some_iff.mp hparse
      rw [htext] at hspells
      exact absurd (hspells.start_le hds) (by omega)
  have hwalk : m.walk ((ds.map String.singleton ++ "," :: more).dropWhile isDigitToken)
      = .lost := by
    rw [List.dropWhile_append_of_pos htokens, List.dropWhile_cons_of_neg (by decide)]
    simp only [Keymap.walk, hcomma]
  simp only [resolveKeys, hsplit, resolveBody, hphrase, hwalk]
  split
  · simp
  · simp

end Keymap

/-! ## 4. Every reachable engine -/

namespace Engine.Reachable

variable {η : Type} {setup : Setup} {e : Engine η}

/-- In visual mode no operator of a span has been typed. -/
theorem visual_head_ne (hk : setup.keymaps = .default) (h : e.Reachable setup)
    (hmode : e.state.mode = .visual)
    (hbeginning : Phrase.Beginning (joinTokens (typedBody e.state.keys)).toList) {op : Char}
    (hop : op ∈ Phrase.spanOperators) :
    (joinTokens (typedBody e.state.keys)).toList.head? ≠ some op := by
  intro hhead
  cases hsplit : splitRegisterKeys e.state.keys with
  | incomplete => exact absurd hhead (by simp [typedBody, hsplit, joinTokens])
  | invalid => exact absurd hhead (by simp [typedBody, hsplit, joinTokens])
  | split register body =>
    cases body with
    | nil => exact absurd hhead (by simp [typedBody, hsplit, joinTokens])
    | cons first rest =>
      obtain ⟨front, hkeys, hextend⟩ := splitRegisterKeys_extend hsplit
      have htyped : typedBody e.state.keys = first :: rest := by simp only [typedBody, hsplit]
      rw [htyped] at hbeginning hhead
      have htokens : ∀ t ∈ first :: rest, IsToken t := by
        intro t ht
        refine h.gathered.tokens t ?_
        rw [hkeys]
        exact List.mem_append_right _ ht
      obtain ⟨c, hc⟩ := single_of_beginning htokens hbeginning first List.mem_cons_self
      obtain rfl : c = op := by
        rw [joinTokens_cons, hc] at hhead
        exact Option.some.inj hhead
      obtain rfl : first = String.singleton c := by
        rw [← String.toList_inj, hc, String.toList_singleton]
      -- the keys up to the operator were pending at their time
      obtain ⟨m, hm, hpending⟩ := h.typed.prefixes (front ++ [String.singleton c])
        (by rw [hkeys]; exact ⟨rest, by simp⟩) (by simp)
      rw [hk, hmode] at hm
      obtain rfl := Option.some.inj hm
      exact absurd hpending (Keymap.defaultVisual_resolves hop (hextend []))

/-- **Pending commands can be completed.**  Of a reachable engine with the default keymaps, let
there be pending keys, with no end of a range and no target too large to be read.  Then some further
keys complete the command, except in visual mode for a name: there no further keys do. -/
theorem completable_iff (hk : setup.keymaps = .default) (h : e.Reachable setup)
    (hne : e.state.keys ≠ [])
    (hfits : ∀ ds ∈ Phrase.endNumerals (bufferBody e.state.buffer).toList,
      Numeral.value ds ≤ maxPosition) :
    (∃ m, e.keymaps.forMode? e.state.mode = some m ∧ m.Completable e.state.keys) ↔
      ¬ (e.state.mode = .visual ∧ (bufferBody e.state.buffer).toList.head? = some '@') := by
  have hg := h.gathered
  obtain ⟨hgathers, m, hm, hpending⟩ := hg.pending hne
  rw [hg.bufferBody_eq] at hfits ⊢
  rw [h.keymaps, hm]
  rw [hk] at hm
  have hcompletable (hf : m.Finishes) := Keymap.completable_of_pending hf hpending hg.tokens
    h.typed.digits hfits
  rcases State.gathers_iff.mp hgathers with hmode | hmode
  · rw [hmode] at hm
    obtain rfl := Option.some.inj hm
    refine iff_of_true ⟨_, rfl, ?_⟩ ?_
    · exact hcompletable Keymap.defaultNormal_finishes fun _ => Keymap.defaultNormal_binds _
    · rw [hmode]
      exact fun hnot => absurd hnot.1 (by decide)
  · rw [hmode] at hm
    obtain rfl := Option.some.inj hm
    constructor
    · rintro ⟨_, hm', more, r, -, hr⟩ ⟨-, hname⟩
      obtain rfl := Option.some.inj hm'
      exact Keymap.defaultVisual_not_resolved (fun t ht => (hg.tokens t ht).toList_ne_nil) hname
        more r hr
    · intro hnot
      refine ⟨_, rfl, hcompletable Keymap.defaultVisual_finishes fun hbeginning => ?_⟩
      exact Keymap.defaultVisual_binds (fun hname => hnot ⟨hmode, hname⟩)
        fun _ => h.visual_head_ne hk hmode hbeginning

/-- The second end of a range is awaited, behind a register. -/
theorem completable_range :
    let e : Engine Unit := (Setup.start { depth := 5 }).run (typing ['"', 'a', '3', ','])
    (e.Reachable { depth := 5 } ∧ e.state.keys ≠ [] ∧
        ∀ ds ∈ Phrase.endNumerals (bufferBody e.state.buffer).toList,
          Numeral.value ds ≤ maxPosition) ∧
      ((∃ m, e.keymaps.forMode? e.state.mode = some m ∧ m.Completable e.state.keys) ↔
        ¬ (e.state.mode = .visual ∧ (bufferBody e.state.buffer).toList.head? = some '@')) := by
  intro e
  have hreachable : e.Reachable { depth := 5 } := Reachable.start.run _
  have hne : e.state.keys ≠ [] := by decide +kernel
  have hfits : ∀ ds ∈ Phrase.endNumerals (bufferBody e.state.buffer).toList,
      Numeral.value ds ≤ maxPosition := by
    decide +kernel
  exact ⟨⟨hreachable, hne, hfits⟩, completable_iff rfl hreachable hne hfits⟩

/-- Two commands that stay pending whatever is typed: a name in visual mode, and a range that
begins at a position of 65 bits. -/
theorem pending_forever :
    let e : Engine Unit := (Setup.start { depth := 3 }).run (typing ['v', '@'])
    let d : Engine Unit :=
      (Setup.start { depth := 3 }).run (typing "18446744073709551616,".toList)
    (e.Reachable { depth := 3 } ∧ e.state.mode = .visual ∧ e.state.keys = ["@"] ∧
        Keymap.defaultVisual.resolveKeys e.state.keys = .pending ∧
        ∀ more r, Keymap.defaultVisual.resolveKeys (e.state.keys ++ more) ≠ .resolved r) ∧
      (d.Reachable { depth := 3 } ∧ d.state.mode = .normal ∧ d.state.keys ≠ [] ∧
        Keymap.defaultNormal.resolveKeys d.state.keys = .pending ∧
        ∀ more r, Keymap.defaultNormal.resolveKeys (d.state.keys ++ more) ≠ .resolved r) := by
  intro e d
  have he : e.Reachable { depth := 3 } := Reachable.start.run _
  have hd : d.Reachable { depth := 3 } := Reachable.start.run _
  obtain ⟨hmode, hkeys⟩ : e.state.mode = .visual ∧ e.state.keys = ["@"] := by decide +kernel
  obtain ⟨hmode', hkeys'⟩ : d.state.mode = .normal ∧
      d.state.keys = "18446744073709551616".toList.map String.singleton ++ [","] := by
    decide +kernel
  have hne : d.state.keys ≠ [] := by
    rw [hkeys']
    simp
  refine ⟨⟨he, hmode, hkeys, ?_, ?_⟩, hd, hmode', hne, ?_, ?_⟩
  · obtain ⟨-, m, hm, hpending⟩ := he.gathered.pending (by rw [hkeys]; simp)
    rw [hmode] at hm
    obtain rfl := Option.some.inj hm
    exact hpending
  · rw [hkeys]
    exact Keymap.defaultVisual_not_resolved (by decide) (by decide)
  · obtain ⟨-, m, hm, hpending⟩ := hd.gathered.pending hne
    rw [hmode'] at hm
    obtain rfl := Option.some.inj hm
    exact hpending
  · rw [hkeys']
    intro more r
    rw [List.append_assoc]
    exact Keymap.not_resolved_of_large rfl ⟨by decide, by decide, rfl⟩ (by decide) more r

end Engine.Reachable

end ModalStack
