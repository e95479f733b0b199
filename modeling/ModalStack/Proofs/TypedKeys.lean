/-
# What the pending keys are

The keys of a half-typed command were typed one after the other, so they are more than a list of
tokens that is pending.  What came first was pending at its time, in the same mode, since every
other outcome would have spent it.  And the engine took every one of them, which it does not do
with digits of other scripts than ASCII (`State.Typed`).

The second fact cannot be had from one step of the state, which knows nothing of what is taken: it
is an induction over runs of its own (`Engine.Reachable.typed`).
-/
import ModalStack.Proofs.Interception

namespace ModalStack

/-! ## 1. Tokens of one character -/

theorem eq_false_of_modifierMark {held : Bool} {letter : Char}
    (h : modifierMark held letter = []) : held = false := by
  cases held with
  | false => rfl
  | true => exact absurd h (by simp [modifierMark])

theorem modifierMark_eq_nil {held : Bool} {letter : Char} (h : '-' ∉ modifierMark held letter) :
    modifierMark held letter = [] := by
  cases held with
  | false => rfl
  | true => exact absurd h (by simp [modifierMark])

namespace KeyPress

variable {press : KeyPress} {c : Char}

/-- A mark has a hyphen. -/
theorem marks_eq_nil (h : '-' ∉ press.marks) : press.marks = [] := by
  simp only [marks, List.mem_append, not_or] at h
  obtain ⟨⟨⟨hctrl, halt⟩, hmeta⟩, hshift⟩ := h
  simp only [marks, modifierMark_eq_nil hctrl, modifierMark_eq_nil halt, modifierMark_eq_nil hmeta,
    modifierMark_eq_nil hshift, List.append_nil]

/-- Of the labels only those of characters have one character. -/
theorem code_of_label {code : KeyCode} (h : code.label = [c]) : code = .char c := by
  cases code with
  | char d => rw [(List.cons.inj h).1]
  | _ => exact absurd (congrArg List.length h) (by simp [KeyCode.label, bracketed])

/-- Without a mark there is no chord. -/
theorem not_chord_of_marks (h : press.marks = []) : press.mods.isChord = false := by
  simp only [marks, List.append_eq_nil_iff] at h
  obtain ⟨⟨⟨hctrl, halt⟩, hmeta⟩, -⟩ := h
  simp [Modifiers.isChord, eq_false_of_modifierMark hctrl, eq_false_of_modifierMark halt,
    eq_false_of_modifierMark hmeta]

/-- A token of one character comes from that character, typed without a chord. -/
theorem char_of_token (h : press.token.toList = [c]) :
    press.code = .char c ∧ press.mods.isChord = false := by
  unfold token at h
  split at h
  · exact absurd (congrArg List.length h) (by rw [List.length_singleton]; decide)
  · rw [String.toList_ofList] at h
    rcases List.append_eq_singleton_iff.mp h with ⟨hmarks, hlabel⟩ | ⟨-, hlabel⟩
    · exact ⟨code_of_label hlabel, not_chord_of_marks hmarks⟩
    · exact absurd hlabel press.code.label_ne_nil

end KeyPress

/-- A character typed without a chord has a token. -/
theorem isToken_singleton (c : Char) : IsToken (String.singleton c) :=
  ⟨{ code := .char c }, by
    have htoken : ({ code := .char c } : KeyPress).token.toList = [c] :=
      KeyPress.token_of_char rfl rfl
    rw [← String.toList_inj, htoken, String.toList_singleton]⟩

/-- Every other token has a hyphen or an angle bracket in it. -/
theorem IsToken.single {t : String} (h : IsToken t) (hhyphen : '-' ∉ t.toList)
    (hbracket : '<' ∉ t.toList) : ∃ c, t.toList = [c] := by
  obtain ⟨press, rfl⟩ := h
  unfold KeyPress.token at hhyphen hbracket ⊢
  split at hhyphen
  · rename_i hescape
    rw [if_pos hescape] at hbracket
    exact absurd (by decide) hbracket
  · rename_i hescape
    rw [if_neg hescape, String.toList_ofList, List.mem_append, not_or] at hbracket
    rw [String.toList_ofList, List.mem_append, not_or] at hhyphen
    rw [if_neg hescape, String.toList_ofList, KeyPress.marks_eq_nil hhyphen.1, List.nil_append]
    cases hcode : press.code with
    | char c => exact ⟨c, rfl⟩
    | _ =>
      rw [hcode] at hbracket
      exact absurd List.mem_cons_self hbracket.2

/-! ## 2. Behind a register prefix -/

/-- What is split, put together again: the body, behind a register prefix if a register is named. -/
theorem splitRegisterKeys_eq_split {keys body : List String} {register : Option String}
    (h : splitRegisterKeys keys = .split register body) :
    (register = none ∧ keys = body ∧ keys.head? ≠ some "\"") ∨
      ∃ name, register = some name ∧ isRegisterToken name = true ∧ body ≠ [] ∧
        keys = "\"" :: name :: body := by
  cases keys with
  | nil =>
    obtain ⟨rfl, rfl⟩ := RegisterSplit.split.inj h
    exact .inl ⟨rfl, rfl, by simp⟩
  | cons token more =>
    by_cases hq : token = "\""
    · subst hq
      cases more with
      | nil => exact absurd h (by simp [splitRegisterKeys])
      | cons name rest =>
        simp only [splitRegisterKeys, ne_eq, not_true_eq_false, if_false] at h
        split at h
        · exact absurd h (by simp)
        · rename_i hname
          split at h
          · exact absurd h (by simp)
          · rename_i hne
            obtain ⟨rfl, rfl⟩ := RegisterSplit.split.inj h
            exact .inr ⟨name, rfl, by simpa using hname, by simpa using hne, rfl⟩
    · have hhead : (token :: more).head? ≠ some "\"" := by simpa using hq
      rw [splitRegisterKeys_of_head_ne hhead] at h
      obtain ⟨rfl, rfl⟩ := RegisterSplit.split.inj h
      exact .inl ⟨rfl, rfl, hhead⟩

/-- What follows the first token behind a register prefix does not matter to the prefix. -/
theorem splitRegisterKeys_extend {keys rest : List String} {register : Option String}
    {first : String} (h : splitRegisterKeys keys = .split register (first :: rest)) :
    ∃ front, keys = front ++ first :: rest ∧
      ∀ rest', splitRegisterKeys (front ++ first :: rest') = .split register (first :: rest') := by
  rcases splitRegisterKeys_eq_split h with ⟨rfl, rfl, hhead⟩ | ⟨name, rfl, hname, -, rfl⟩
  · exact ⟨[], rfl, fun rest' => splitRegisterKeys_of_head_ne hhead⟩
  · exact ⟨["\"", name], rfl, fun rest' => splitRegisterKeys_of_name hname (by simp)⟩

/-- A register prefix that is not complete. -/
theorem splitRegisterKeys_eq_incomplete {keys : List String}
    (h : splitRegisterKeys keys = .incomplete) :
    keys = ["\""] ∨ ∃ name, isRegisterToken name = true ∧ keys = ["\"", name] := by
  cases keys with
  | nil => exact absurd h (by simp [splitRegisterKeys])
  | cons token more =>
    by_cases hq : token = "\""
    · subst hq
      cases more with
      | nil => exact .inl rfl
      | cons name body =>
        simp only [splitRegisterKeys, ne_eq, not_true_eq_false, if_false] at h
        split at h
        · exact absurd h (by simp)
        · rename_i hname
          split at h
          · rename_i hbody
            rw [List.isEmpty_iff.mp hbody]
            exact .inr ⟨name, by simpa using hname, rfl⟩
          · exact absurd h (by simp)
    · simp [splitRegisterKeys, hq] at h

/-! ## 3. The digits that are taken -/

/-- In a mode that gathers keys no text is taken but digits, wherever it is typed. -/
theorem State.acceptsDigit_of_takes {s : State} {context : Context} {press : KeyPress}
    (hmode : s.mode.Gathers) (htext : press.category = .text)
    (htakes : s.takes context press = true) : s.acceptsDigit press = true := by
  have hin : s.takesIn context press = true := by
    rcases hmode with hm | hm
    · simpa only [takes, hm] using htakes
    · simpa only [takes, hm] using htakes
  cases context with
  | stack => simpa [takesIn, htext] using hin
  | _ => exact absurd hin (by simp [takesIn, htext])

/-- **A decimal digit that is taken is an ASCII digit.** -/
theorem State.isDigit_of_takes {s : State} {context : Context} {press : KeyPress} {c : Char}
    (hmode : s.mode.Gathers) (htakes : s.takes context press = true)
    (htoken : press.token.toList = [c]) (hdecimal : Text.isDecimal c = true) :
    c.isDigit = true := by
  obtain ⟨hcode, hchord⟩ := KeyPress.char_of_token htoken
  cases halnum : c.isAlphanum with
  | true => exact Text.isDigit_of_isDecimal hdecimal halnum
  | false =>
    have hother : press.isOtherWord = true :=
      (KeyPress.isOtherWord_iff hcode hchord).mpr ⟨Text.isWord_of_isDecimal hdecimal, halnum⟩
    have htext : press.category = .text := KeyPress.text_of_isOtherWord hother
    exact ((acceptsDigit_iff hcode hchord).mp (acceptsDigit_of_takes hmode htext htakes)).1

/-! ## 4. The invariant -/

/-- What the pending keys begin with was pending at its time, and the digits among them are ASCII
digits. -/
structure State.Typed (keymaps : Keymaps) (s : State) : Prop where
  prefixes : ∀ front, front <+: s.keys → front ≠ [] →
    ∃ m, keymaps.forMode? s.mode = some m ∧ m.resolveKeys front = .pending
  digits : ∀ t ∈ s.keys, ∀ c, t.toList = [c] → Text.isDecimal c = true → c.isDigit = true

namespace State.Typed

variable {keymaps : Keymaps} {s t : State}

theorem of_empty (hk : s.keys = []) : s.Typed keymaps where
  prefixes front hfront hne := by
    rw [hk] at hfront
    exact absurd (List.prefix_nil.mp hfront) hne
  digits := by rw [hk]; exact fun _ h => absurd h (by simp)

/-- The invariant looks at two fields only. -/
theorem congr (h : s.Typed keymaps) (hm : t.mode = s.mode) (hk : t.keys = s.keys) :
    t.Typed keymaps where
  prefixes := by rw [hk, hm]; exact h.prefixes
  digits := by rw [hk]; exact h.digits

/-- **A key that is taken** goes on what was typed, or everything is spent. -/
theorem react (h : s.Typed keymaps) (hg : s.Gathered keymaps) (settings : Settings)
    {context : Context} {input : Input} (htakes : s.takes context input.press = true) :
    (s.react keymaps settings input).1.Typed keymaps := by
  generalize hres : s.react keymaps settings input = result
  have hturn : s.Turn keymaps settings input result := hres ▸ s.react_turn keymaps settings input
  cases hturn with
  | typed hm =>
    obtain ⟨-, hk⟩ := hg.empty (by simp [gathers, hm])
    obtain ⟨_, _, _, _, -, heq, -⟩ := s.searchInput_eq input settings.segmentation
    rw [heq]
    exact of_empty hk
  | completed hm hgathers hr => exact of_empty execute_keys
  | @gathered m hm hgathers hr =>
    refine ⟨?_, ?_⟩
    · intro front hfront hne
      rcases List.prefix_concat_iff.mp hfront with rfl | hfront
      · exact ⟨m, hm, hr⟩
      · exact h.prefixes front hfront hne
    · intro t ht c hc hdecimal
      rcases List.mem_append.mp ht with ht | ht
      · exact h.digits t ht c hc hdecimal
      · rw [List.mem_singleton.mp ht] at hc
        exact isDigit_of_takes (gathers_iff.mp hgathers) htakes hc hdecimal
  | rejected hm hgathers hr => exact of_empty rfl
  | lookedUp hm ha => exact of_empty execute_keys
  | escaped hm hesc ha => exact of_empty rfl
  | ignored hm hgathers ha => exact h

end State.Typed

/-! ## 5. Every reachable engine -/

namespace Engine

variable {η : Type} {setup : Setup} {e : Engine η}

theorem perform_typed (h : e.state.Typed e.keymaps) (hg : e.state.Gathered e.keymaps)
    (op : Operation) : (e.perform op).1.state.Typed e.keymaps := by
  cases op with
  | event input context =>
    rw [perform, handleEvent_state]
    split
    · rename_i htakes
      exact h.react hg e.settings htakes
    · exact h
  | submitLine line => exact .of_empty rfl
  | setDepth _ | setPendingCount _ | storeRegister _ _ => exact h.congr rfl rfl

/-- **The induction over runs, for the keys.** -/
theorem Reachable.typed (h : e.Reachable setup) : e.state.Typed setup.keymaps := by
  induction h with
  | start =>
    refine .of_empty ?_
    unfold Setup.start Setup.state
    split
    · rfl
    · rfl
  | @perform e op h ih =>
    have hkeymaps : e.keymaps = setup.keymaps := h.keymaps
    have hg : e.state.Gathered setup.keymaps := h.gathered
    rw [← hkeymaps] at ih hg ⊢
    exact perform_typed ih hg op
  | listen listeners _ ih => exact ih

end Engine

end ModalStack
