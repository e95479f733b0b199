/-
# The engine takes the keys that count

Whether the engine takes a key on the stack is decided without the keymap and the grammar: by
the category of the key, and for digits by a look at what is half typed.  The resolver knows
both, and refuses the keys of which nothing can come.

The two agree on all keys but one sort.  A key that the resolver does not refuse is taken,
unless it types a character of names that is neither an ASCII letter nor an ASCII digit, such
as `_` or `é` (`KeyPress.isOtherWord`): those are text, and text is left to the host even where
a name is being typed (`Engine.Reachable.takes_iff`).

The argument needs of the resolver only what can come last (`Keymap.LastKey`).  A key that is
text is no sign of a phrase and no key of the default keymaps, so it is in a register prefix or
in a name, a number or the end of a range.
-/
import ModalStack.Intercept
import ModalStack.Proofs.LastKeys

namespace ModalStack

/-- The press types a character that may stand in a name, and is neither an ASCII letter nor an
ASCII digit. -/
def KeyPress.isOtherWord (press : KeyPress) : Bool :=
  match press.code with
  | .char c => !press.mods.isChord && Text.isWord c && !c.isAlphanum
  | _ => false

/-! ## 1. Text -/

theorem charCategory_eq_text {c : Char} (h : charCategory c = .text) :
    c ∉ navigationChars ∧ c ∉ editingChars ∧ c ∉ leadingChars ∧ c.isAlpha = false := by
  unfold charCategory at h
  split at h
  · exact absurd h (by decide)
  · rename_i hnavigation
    split at h
    · exact absurd h (by decide)
    · rename_i hediting
      split at h
      · exact absurd h (by decide)
      · rename_i hleading
        rw [not_or, Bool.not_eq_true] at hleading
        exact ⟨hnavigation, hediting, hleading⟩

/-- No sign of a phrase is text. -/
theorem Phrase.IsSign.not_text {c : Char} (h : Phrase.IsSign c) : charCategory c ≠ .text := by
  intro htext
  rcases h with halpha | hsign
  · obtain ⟨-, -, -, hnot⟩ := charCategory_eq_text htext
    exact absurd halpha (by simp [hnot])
  · simp only [List.mem_cons, List.not_mem_nil, or_false] at hsign
    rcases hsign with rfl | rfl | rfl | rfl | rfl | rfl
    all_goals exact absurd htext (by decide)

/-- No key of the default keymaps is text. -/
theorem Keymaps.default_keys_not_text {t : String} {c : Char} (h : t ∈ Keymaps.default.keys)
    (ht : t.toList = [c]) : charCategory c ≠ .text := by
  have hall : ∀ t ∈ Keymaps.default.keys,
      t.toList.length = 1 → charCategory (t.toList.headD ' ') ≠ .text := by
    decide +kernel
  have hkey := hall t h
  rw [ht] at hkey
  exact hkey rfl

namespace KeyPress

variable {press : KeyPress} {c : Char}

theorem isControlBracket_of_not_chord (h : press.mods.isChord = false) :
    press.isControlBracket = false := by
  have hctrl : press.mods.ctrl = false := by
    simp only [Modifiers.isChord, Bool.or_eq_false_iff] at h
    exact h.1.1
  simp [isControlBracket, hctrl]

/-- The category of a character typed without a chord. -/
theorem category_of_char (hcode : press.code = .char c) (h : press.mods.isChord = false) :
    press.category = charCategory c := by
  simp [category, hcode, isControlBracket_of_not_chord h, h]

/-- The token of a character typed without a chord is the character. -/
theorem token_of_char (hcode : press.code = .char c) (h : press.mods.isChord = false) :
    press.token.toList = [c] := by
  have hbracket := isControlBracket_of_not_chord h
  simp only [Modifiers.isChord, Bool.or_eq_false_iff] at h
  obtain ⟨⟨hctrl, halt⟩, hmeta⟩ := h
  simp [token, hbracket, marks, modifierMark, hctrl, halt, hmeta, hcode, KeyCode.isChar,
    KeyCode.label]

/-- A key that is text types a character. -/
theorem char_of_text (h : press.category = .text) :
    ∃ c, press.code = .char c ∧ press.mods.isChord = false ∧ charCategory c = .text := by
  obtain ⟨code, mods⟩ := press
  cases code with
  | char c =>
    simp only [category] at h
    split at h
    · exact absurd h (by decide)
    · split at h
      · exact absurd h (by decide)
      · rename_i hchord
        exact ⟨c, rfl, by simpa using hchord, h⟩
  | _ => exact absurd h (by simp [category])

theorem isOtherWord_iff (hcode : press.code = .char c) (h : press.mods.isChord = false) :
    press.isOtherWord = true ↔ Text.isWord c = true ∧ c.isAlphanum = false := by
  simp [isOtherWord, hcode, h]

theorem char_of_isOtherWord (h : press.isOtherWord = true) :
    ∃ c, press.code = .char c ∧ press.mods.isChord = false ∧ Text.isWord c = true ∧
      c.isAlphanum = false := by
  unfold isOtherWord at h
  split at h
  · rename_i c hcode
    simp only [Bool.and_eq_true, Bool.not_eq_true'] at h
    exact ⟨c, hcode, h.1.1, h.1.2, h.2⟩
  · exact absurd h (by simp)

/-- Characters of names that are no letters and no digits are text. -/
theorem text_of_isOtherWord (h : press.isOtherWord = true) : press.category = .text := by
  obtain ⟨c, hcode, hchord, hword, hnot⟩ := char_of_isOtherWord h
  have hall : ((navigationChars ++ editingChars ++ leadingChars).all fun c =>
      !Text.isWord c || c.isAlphanum) = true := by
    decide +kernel
  have hnone : c ∉ navigationChars ++ editingChars ++ leadingChars := by
    intro hmem
    have hc := List.all_eq_true.mp hall c hmem
    simp [hword, hnot] at hc
  simp only [List.mem_append, not_or] at hnone
  have halpha : c.isAlpha = false := by
    simp only [Char.isAlphanum, Bool.or_eq_false_iff] at hnot
    exact hnot.1
  rw [category_of_char hcode hchord]
  simp [charCategory, hnone, halpha]

end KeyPress

/-! ## 2. Digits -/

namespace State

variable {s : State} {press : KeyPress} {c : Char}

/-- Of the keys that are text only digits can be taken. -/
theorem takes_of_text (hmode : s.mode.Gathers) (h : press.category = .text) :
    s.takes .stack press = s.acceptsDigit press := by
  rcases hmode with hm | hm
  · simp [takes, hm, takesIn, h]
  · simp [takes, hm, takesIn, h]

theorem takes_of_not_text (hmode : s.mode.Gathers) (h : press.category ≠ .text) :
    s.takes .stack press = true := by
  rcases hmode with hm | hm
  · simp [takes, hm, takesIn, h]
  · simp [takes, hm, takesIn, h]

theorem acceptsDigit_iff (hcode : press.code = .char c) (h : press.mods.isChord = false) :
    s.acceptsDigit press = true ↔ c.isDigit = true ∧
      ((bufferBody s.buffer).toList.all Char.isDigit = true ∨
        Phrase.isPending (bufferBody s.buffer) = true) := by
  simp [acceptsDigit, hcode, h]

/-- Text that can come last in a command: a digit that is taken, or no digit. -/
theorem acceptsDigit_of_lastKey {keymaps : Keymaps} (hg : s.Gathered keymaps) {m : Keymap}
    (hkeys : ∀ t ∈ m.keys, t ∈ Keymaps.default.keys) (hcode : press.code = .char c)
    (hchord : press.mods.isChord = false) (htext : charCategory c = .text)
    (h : m.LastKey s.keys press.token) :
    s.acceptsDigit press = true ∨ Text.isWord c = true ∧ c.isAlphanum = false := by
  obtain ⟨-, -, hleading, halpha⟩ := charCategory_eq_text htext
  have htoken : press.token.toList = [] ++ [c] := KeyPress.token_of_char hcode hchord
  have hbody : bufferBody s.buffer = joinTokens (typedBody s.keys) := hg.bufferBody_eq
  rcases h.ends htoken with ⟨hempty, -, hname⟩ | hkey | hends
  · -- a digit that names a register
    left
    have hdigit : c.isDigit = true := by
      simp only [isRegisterName, Char.isAlphanum, halpha, Bool.false_or, Bool.or_eq_true,
        beq_iff_eq] at hname
      rcases hname with hdigit | rfl
      · exact hdigit
      · exact absurd (by decide) hleading
    rw [acceptsDigit_iff hcode hchord, hbody, hempty]
    exact ⟨hdigit, .inl rfl⟩
  · exact absurd htext (Keymaps.default_keys_not_text (hkeys _ hkey) htoken)
  · rcases hends with hsign | ⟨hword, hfront⟩
    · exact absurd htext hsign.not_text
    · cases hdigit : c.isDigit with
      | false => exact .inr ⟨hword, by simp [Char.isAlphanum, halpha, hdigit]⟩
      | true =>
        left
        rw [acceptsDigit_iff hcode hchord, hbody]
        refine ⟨hdigit, ?_⟩
        rw [List.append_nil] at hfront
        rcases hfront with hnil | hpending
        · exact .inl (by rw [hnil]; rfl)
        · rw [String.ofList_toList] at hpending
          exact .inr hpending

/-- **When a key that counts is taken.**  Let the keys that are pending and one more not be
refused.  Then that key is taken on the stack exactly if it does not type a character of names
beyond the ASCII letters and digits. -/
theorem Gathered.takes_iff_of_counts {keymaps : Keymaps} (hg : s.Gathered keymaps)
    (hmode : s.mode.Gathers) {m : Keymap} (hkeys : ∀ t ∈ m.keys, t ∈ Keymaps.default.keys)
    (press : KeyPress) (hcounts : m.resolveKeys (s.keys ++ [press.token]) ≠ .invalid) :
    s.takes .stack press = true ↔ press.isOtherWord = false := by
  by_cases htext : press.category = .text
  · obtain ⟨c, hcode, hchord, hc⟩ := KeyPress.char_of_text htext
    have hother := KeyPress.isOtherWord_iff hcode hchord
    have hdigit := s.acceptsDigit_iff hcode hchord
    rw [State.takes_of_text hmode htext, ← Bool.not_eq_true, hother]
    constructor
    · rintro haccepts ⟨-, hnot⟩
      obtain ⟨hd, -⟩ := hdigit.mp haccepts
      exact absurd hnot (by simp [Char.isAlphanum, hd])
    · intro hnot
      exact (State.acceptsDigit_of_lastKey hg hkeys hcode hchord hc
        (.of_resolveKeys hcounts)).resolve_right hnot
  · have htaken : s.takes .stack press = true := State.takes_of_not_text hmode htext
    have hnot : press.isOtherWord ≠ true := fun h => htext (KeyPress.text_of_isOtherWord h)
    simp [htaken, hnot]

end State

/-! ## 3. Every reachable engine -/

/-- **When a key that counts is taken.**  In normal and visual mode of a reachable engine with
the default keymaps, let the keys that are pending and one more not be refused.  Then the engine
takes that key on the stack exactly if it does not type a character of names beyond the ASCII
letters and digits. -/
theorem Engine.Reachable.takes_iff {η : Type} {setup : Setup} {e : Engine η}
    (hk : setup.keymaps = .default) (hr : e.Reachable setup)
    (hmode : e.state.mode = .normal ∨ e.state.mode = .visual) {m : Keymap}
    (hm : e.keymaps.forMode? e.state.mode = some m) (press : KeyPress)
    (hcounts : m.resolveKeys (e.state.keys ++ [press.token]) ≠ .invalid) :
    e.state.takes .stack press = true ↔ press.isOtherWord = false := by
  have hkeys : ∀ t ∈ m.keys, t ∈ Keymaps.default.keys := by
    rw [hr.keymaps, hk] at hm
    exact fun t ht => Keymaps.mem_keys hm ht
  exact hr.gathered.takes_iff_of_counts hmode hkeys press hcounts

/-- A digit behind a register. -/
theorem Engine.Reachable.takes_counted :
    let e : Engine Unit := (Setup.start { depth := 5 }).run (Engine.typing ['"', 'a'])
    let press : KeyPress := { code := .char '3' }
    (e.state.keys = ["\"", "a"] ∧
        Keymap.defaultNormal.resolveKeys (e.state.keys ++ [press.token]) ≠ .invalid) ∧
      (e.state.takes .stack press = true ↔ press.isOtherWord = false) := by
  intro e press
  have hr : e.Reachable { depth := 5 } := Engine.Reachable.start.run _
  have hmode : e.state.mode = .normal := by decide +kernel
  have hkeymap : e.keymaps.forMode? e.state.mode = some Keymap.defaultNormal := by
    rw [hmode]
    rfl
  have hcounts : Keymap.defaultNormal.resolveKeys (e.state.keys ++ [press.token]) ≠ .invalid := by
    decide +kernel
  exact ⟨⟨by decide +kernel, hcounts⟩, takes_iff rfl hr (.inl hmode) hkeymap press hcounts⟩

/-- `@_` is a complete command, but its second key is not taken. -/
theorem Engine.Reachable.underscore_not_taken :
    let e : Engine Unit := (Setup.start { depth := 5 }).run (Engine.typing ['@'])
    let press : KeyPress := { code := .char '_' }
    e.Reachable { depth := 5 } ∧ e.state.mode = .normal ∧ e.state.keys = ["@"] ∧
      Keymap.defaultNormal.resolveKeys (e.state.keys ++ [press.token]) ≠ .invalid ∧
      (e.state.react .default {} (.key press)).2 = some (.moveToNamed "_") ∧
      e.state.takes .stack press = false :=
  ⟨Engine.Reachable.start.run _, by decide +kernel⟩

end ModalStack
