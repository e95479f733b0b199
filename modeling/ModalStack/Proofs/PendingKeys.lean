/-
# The half-typed command

What was typed of a command that is not complete is held twice: as tokens, which the resolver
reads, and joined to one text, which decides whether the engine takes a digit.  A register
prefix is split off on both, token by token and character by character.

On tokens of key presses the two splits agree, unless the resolver refuses the register name
(`bufferBody_joinTokens`).  In general they do not: of the two tokens `"` and `C-j` the resolver
makes nothing, while the joined text reads as register `C` with `-j` behind it.  So the
invariant (`State.Gathered`) is not only that tokens and text agree, but also that there are
tokens only while they are pending, which refused ones are not.

An action may return any state, with any buffer in it.  That does no harm, because running an
action spends what was typed: every way out of a command ends in no tokens and no text.
-/
import ModalStack.Proofs.Reachable
import ModalStack.Proofs.Turns

namespace ModalStack

/-! ## 1. Tokens of key presses -/

/-- The text is the token of some key press. -/
def IsToken (t : String) : Prop := ∃ press : KeyPress, press.token = t

theorem mem_modifierMark {held : Bool} {letter c : Char} (h : c ∈ modifierMark held letter) :
    c = letter ∨ c = '-' := by
  unfold modifierMark at h
  split at h
  · simpa using h
  · exact absurd h (by simp)

/-- What the marks of the modifiers consist of. -/
theorem KeyPress.mem_marks {press : KeyPress} {c : Char} (h : c ∈ press.marks) :
    c ∈ '-' :: markLetters := by
  simp only [KeyPress.marks, List.mem_append] at h
  rcases h with ((h | h) | h) | h
  all_goals
    rcases mem_modifierMark h with rfl | rfl
    all_goals decide

theorem KeyCode.label_ne_nil (code : KeyCode) : code.label ≠ [] := by
  cases code with
  | char c => exact List.cons_ne_nil c []
  | _ => exact List.cons_ne_nil _ _

/-- A label that begins with no bracket is a single character. -/
theorem KeyCode.label_tail {code : KeyCode} {c : Char} {rest : List Char}
    (h : code.label = c :: rest) (hc : c ≠ '<') : rest = [] := by
  cases code with
  | char _ => exact (List.cons.inj h).2.symm
  | _ => exact absurd (List.cons.inj h).1.symm hc

namespace IsToken

theorem toList_ne_nil {t : String} (h : IsToken t) : t.toList ≠ [] := by
  obtain ⟨press, rfl⟩ := h
  unfold KeyPress.token
  split
  · decide
  · rw [String.toList_ofList]
    exact List.append_ne_nil_of_right_ne_nil _ press.code.label_ne_nil

/-- **A token is a single character**, unless it begins as a name or a mark does. -/
theorem tail_eq_nil {t : String} (h : IsToken t) {c : Char} {rest : List Char}
    (ht : t.toList = c :: rest) (hc : c ∉ '<' :: '-' :: markLetters) : rest = [] := by
  have hbracket : c ≠ '<' := by
    rintro rfl
    exact hc List.mem_cons_self
  obtain ⟨press, rfl⟩ := h
  unfold KeyPress.token at ht
  split at ht
  · exact absurd (List.cons.inj ht).1.symm hbracket
  · rw [String.toList_ofList] at ht
    rcases List.append_eq_cons_iff.mp ht with ⟨-, hlabel⟩ | ⟨marks, hmarks, -⟩
    · exact KeyCode.label_tail hlabel hbracket
    · have hmem : c ∈ press.marks := by
        rw [hmarks]
        exact List.mem_cons_self
      exact absurd (List.mem_cons_of_mem _ (KeyPress.mem_marks hmem)) hc

/-- A token that begins with a quote is the quote. -/
theorem eq_quote {t : String} (h : IsToken t) {rest : List Char}
    (ht : t.toList = '"' :: rest) : t = "\"" := by
  obtain rfl := h.tail_eq_nil ht (by decide)
  exact String.toList_inj.mp ht

end IsToken

/-! ## 2. The two ways to split off a register -/

/-- The tokens behind a register prefix; none, as long as the prefix is incomplete or if it is
invalid. -/
def typedBody (keys : List String) : List String :=
  match splitRegisterKeys keys with
  | .split _ body => body
  | _ => []

theorem joinTokens_cons (t : String) (ts : List String) :
    (joinTokens (t :: ts)).toList = t.toList ++ (joinTokens ts).toList := by
  simp only [toList_joinTokens, List.flatMap_cons]

theorem splitRegister_of_head_ne {c : Char} {cs : List Char} (h : c ≠ '"') :
    splitRegister (c :: cs) = .split none (c :: cs) := by
  unfold splitRegister
  split
  · rename_i heq; exact absurd (List.cons.inj heq).1 h
  · rename_i heq; exact absurd (List.cons.inj heq).1 h
  · rfl

/-- Where no quote comes first there is no register prefix. -/
theorem splitRegisterKeys_of_head_ne {keys : List String} (hquote : keys.head? ≠ some "\"") :
    splitRegisterKeys keys = .split none keys := by
  cases keys with
  | nil => rfl
  | cons first rest =>
    have hfirst : first ≠ "\"" := fun heq => hquote (by rw [heq]; rfl)
    simp [splitRegisterKeys, hfirst]

theorem splitRegisterKeys_of_name {name : String} {keys : List String}
    (hname : isRegisterToken name = true) (hne : keys ≠ []) :
    splitRegisterKeys ("\"" :: name :: keys) = .split (some name) keys := by
  simp [splitRegisterKeys, hname, hne]

/-- **The two splits agree.**  Of tokens that do not name an invalid register, the text behind
the register prefix is the tokens behind it. -/
theorem bufferBody_joinTokens {keys : List String} (hk : ∀ t ∈ keys, IsToken t)
    (hs : splitRegisterKeys keys ≠ .invalid) :
    bufferBody (joinTokens keys) = joinTokens (typedBody keys) := by
  cases keys with
  | nil => rfl
  | cons first rest =>
    by_cases hq : first = "\""
    · subst hq
      cases rest with
      | nil => rfl
      | cons name body =>
        have hname : isRegisterToken name = true := by
          cases hn : isRegisterToken name with
          | true => rfl
          | false => exact absurd (by simp [splitRegisterKeys, hn]) hs
        obtain ⟨c, hc, hreg⟩ : ∃ c, name.toList = [c] ∧ isRegisterName c = true := by
          unfold isRegisterToken at hname
          split at hname
          · rename_i c hc; exact ⟨c, hc, hname⟩
          · exact absurd hname (by simp)
        have hjoin : (joinTokens ("\"" :: name :: body)).toList
            = '"' :: c :: (joinTokens body).toList := by
          rw [joinTokens_cons, joinTokens_cons, hc]
          rfl
        cases body with
        | nil =>
          simp only [bufferBody, typedBody, hjoin]
          simp [splitRegister, splitRegisterKeys, hreg, hname, joinTokens]
        | cons t ts =>
          have hne : (joinTokens (t :: ts)).toList ≠ [] := by
            rw [joinTokens_cons]
            exact List.append_ne_nil_of_left_ne_nil (hk t (by simp)).toList_ne_nil _
          simp only [bufferBody, typedBody, hjoin]
          simp [splitRegister, splitRegisterKeys, hreg, hname, hne]
    · obtain ⟨c, cs, hc⟩ : ∃ c cs, first.toList = c :: cs :=
        List.exists_cons_of_ne_nil (hk first List.mem_cons_self).toList_ne_nil
      have hcq : c ≠ '"' := by
        rintro rfl
        exact hq ((hk first List.mem_cons_self).eq_quote hc)
      have hbody : typedBody (first :: rest) = first :: rest := by
        simp [typedBody, splitRegisterKeys, hq]
      have hsplit : splitRegister (joinTokens (first :: rest)).toList
          = .split none (joinTokens (first :: rest)).toList := by
        rw [joinTokens_cons, hc, List.cons_append, splitRegister_of_head_ne hcq]
      simp only [bufferBody, hsplit, hbody, String.ofList_toList]

/-- With an invalid register the text has a body, and the tokens have none. -/
example : bufferBody (joinTokens ["\"", "C-j"]) = "-j" ∧ typedBody ["\"", "C-j"] = [] := by
  decide +kernel

/-- Tokens that are pending do not name an invalid register. -/
theorem splitRegisterKeys_ne_invalid {m : Keymap} {keys : List String}
    (h : m.resolveKeys keys = .pending) : splitRegisterKeys keys ≠ .invalid := by
  intro hs
  simp [Keymap.resolveKeys, hs] at h

/-! ## 3. The invariant -/

/-- Tokens and text agree, and there are tokens only while more of them are awaited. -/
structure State.Gathered (keymaps : Keymaps) (s : State) : Prop where
  buffer : s.buffer = joinTokens s.keys
  tokens : ∀ t ∈ s.keys, IsToken t
  pending : s.keys ≠ [] →
    s.gathers = true ∧ ∃ m, keymaps.forMode? s.mode = some m ∧ m.resolveKeys s.keys = .pending

theorem State.gathers_iff {s : State} : s.gathers = true ↔ s.mode.Gathers := by
  simp [State.gathers, Mode.Gathers]

namespace State.Gathered

variable {keymaps : Keymaps} {s t : State}

theorem of_empty (hb : s.buffer = "") (hk : s.keys = []) : s.Gathered keymaps where
  buffer := by rw [hb, hk]; rfl
  tokens := by rw [hk]; exact fun _ h => absurd h (by simp)
  pending h := absurd hk h

/-- The invariant looks at three fields only. -/
theorem congr (h : s.Gathered keymaps) (hm : t.mode = s.mode) (hb : t.buffer = s.buffer)
    (hk : t.keys = s.keys) : t.Gathered keymaps where
  buffer := by rw [hb, hk]; exact h.buffer
  tokens := by rw [hk]; exact h.tokens
  pending hne := by
    rw [hk] at hne ⊢
    rw [State.gathers, hm]
    exact h.pending hne

/-- There are no keys where there is no text. -/
theorem keys_eq_nil (h : s.Gathered keymaps) (hbuffer : s.buffer = "") : s.keys = [] := by
  cases hcase : s.keys with
  | nil => rfl
  | cons t ts =>
    have hjoined : (joinTokens (t :: ts)).toList = [] := by
      rw [← hcase, ← h.buffer, hbuffer]
      rfl
    rw [joinTokens_cons] at hjoined
    have ht : IsToken t := h.tokens t (by rw [hcase]; exact List.mem_cons_self)
    exact absurd (List.append_eq_nil_iff.mp hjoined).1 ht.toList_ne_nil

/-- In a mode that gathers no keys nothing is half typed. -/
theorem empty (h : s.Gathered keymaps) (hg : s.gathers = false) :
    s.buffer = "" ∧ s.keys = [] := by
  have hk : s.keys = [] := by
    cases hkeys : s.keys with
    | nil => rfl
    | cons t ts =>
      obtain ⟨hg', -⟩ := h.pending (by rw [hkeys]; exact List.cons_ne_nil t ts)
      exact absurd hg' (by simp [hg])
  exact ⟨by rw [h.buffer, hk]; rfl, hk⟩

/-- **Every step keeps tokens and text in agreement**, whatever the keymaps bind: a token is
gathered to both, or both are spent. -/
theorem react (h : s.Gathered keymaps) (settings : Settings) (input : Input) :
    (s.react keymaps settings input).1.Gathered keymaps := by
  generalize hres : s.react keymaps settings input = result
  have hturn : s.Turn keymaps settings input result := hres ▸ s.react_turn keymaps settings input
  cases hturn with
  | typed hm =>
    obtain ⟨hb, hk⟩ := h.empty (by simp [gathers, hm])
    -- a search is typed beside the buffer
    obtain ⟨_, _, _, _, -, heq, -⟩ := s.searchInput_eq input settings.segmentation
    rw [heq]
    exact of_empty hb hk
  | completed hm hg hr => exact of_empty execute_buffer execute_keys
  | @gathered m hm hg hr =>
    refine ⟨rfl, ?_, fun _ => ⟨hg, m, hm, hr⟩⟩
    intro t ht
    rcases List.mem_append.mp ht with ht | ht
    · exact h.tokens t ht
    · exact ⟨input.press, (List.mem_singleton.mp ht).symm⟩
  | rejected hm hg hr => exact of_empty rfl rfl
  | lookedUp hm ha => exact of_empty execute_buffer execute_keys
  | escaped hm hesc ha => exact of_empty rfl rfl
  | ignored hm hg ha => exact h

theorem invariant (keymaps : Keymaps) (settings : Settings) :
    Invariant keymaps settings (State.Gathered keymaps) where
  react input h := h.react settings input
  afterLine _ := of_empty rfl rfl
  withDepth _ h := h.congr rfl rfl rfl
  withCount _ h := h.congr rfl rfl rfl
  withRegisters _ h := h.congr rfl rfl rfl

theorem start (setup : Setup) : setup.state.Gathered setup.keymaps := by
  unfold Setup.state
  split
  · exact of_empty rfl rfl
  · exact of_empty rfl rfl

end State.Gathered

/-! ## 4. Every reachable engine -/

theorem Engine.Reachable.gathered {η : Type} {setup : Setup} {e : Engine η}
    (h : e.Reachable setup) : e.state.Gathered setup.keymaps :=
  h.of_invariant (State.Gathered.invariant setup.keymaps setup.settings)
    (State.Gathered.start setup)

/-- **What is half typed is pending.**  Whatever the keymaps bind, and whatever a host does to
the engine: the buffer is the joined keys; there are keys only in normal or visual mode, where
the keymap of the mode awaits more of them; and the text that decides about digits is what the
resolver reads behind a register prefix. -/
theorem Engine.Reachable.keys_pending {η : Type} {setup : Setup} {e : Engine η}
    (h : e.Reachable setup) :
    e.state.buffer = joinTokens e.state.keys ∧
      (e.state.keys ≠ [] →
        (e.state.mode = .normal ∨ e.state.mode = .visual) ∧
          ∃ m, e.keymaps.forMode? e.state.mode = some m ∧
            m.resolveKeys e.state.keys = .pending) ∧
      bufferBody e.state.buffer = joinTokens (typedBody e.state.keys) := by
  have hg : e.state.Gathered setup.keymaps := h.gathered
  refine ⟨hg.buffer, ?_, ?_⟩
  · intro hne
    obtain ⟨hmode, m, hm, hr⟩ := hg.pending hne
    exact ⟨State.gathers_iff.mp hmode, m, by rw [h.keymaps]; exact hm, hr⟩
  · rw [hg.buffer]
    by_cases hne : e.state.keys = []
    · rw [hne]
      rfl
    · obtain ⟨-, m, -, hr⟩ := hg.pending hne
      exact bufferBody_joinTokens hg.tokens (splitRegisterKeys_ne_invalid hr)

/-- A register and a count are typed, and the action is still missing. -/
theorem Engine.Reachable.keys_pending_counted :
    let e : Engine Unit :=
      (Setup.start { depth := 5, mode := .visual }).run (Engine.typing ['"', 'a', '3'])
    (e.state.keys = ["\"", "a", "3"] ∧ bufferBody e.state.buffer = "3") ∧
      e.state.buffer = joinTokens e.state.keys ∧
      (e.state.keys ≠ [] →
        (e.state.mode = .normal ∨ e.state.mode = .visual) ∧
          ∃ m, e.keymaps.forMode? e.state.mode = some m ∧
            m.resolveKeys e.state.keys = .pending) ∧
      bufferBody e.state.buffer = joinTokens (typedBody e.state.keys) := by
  intro e
  exact ⟨by decide +kernel, keys_pending (Engine.Reachable.start.run _)⟩

end ModalStack
