/-
# Typing in a field

A command may be half typed on the stack when the focus moves into a text field, a command line,
a search field or a dialog.  What is typed there is not meant for the stack, and under the
default keymaps it never acts on it, whatever is half typed
(`Engine.field_leaves_stack`).

In a field the engine takes only the keys that leave it, escapes and the enter key, with any
modifiers.  One of their tokens is bound in normal and visual mode, that of the plain escape, and
its action touches neither cursor nor memory.  The others have names in angle brackets, and those
end no command: they are refused, and the half-typed command with them.
-/
import ModalStack.Proofs.Escaping

namespace ModalStack

/-! ## 1. The keys that are taken in a field -/

/-- What is typed in this context is text, or meant for a dialog. -/
def Context.isField : Context → Bool
  | .cell | .commandLine | .search | .dialog => true
  | .stack | .widget => false

/-- The key leaves a field: it is an escape or submits. -/
def KeyPress.Leaves (press : KeyPress) : Prop :=
  press.category = .escape ∨ press.category = .submit

/-- Of the keys that are typed in a field only those that leave it are taken. -/
theorem State.leaves_of_takes {s : State} {context : Context} {press : KeyPress}
    (hmode : s.mode.Gathers) (hc : context.isField = true) (h : s.takes context press = true) :
    press.Leaves := by
  have hin : s.takesIn context press = true := by
    rcases hmode with hm | hm
    · simpa only [takes, hm] using h
    · simpa only [takes, hm] using h
  cases context with
  | cell =>
    simp only [takesIn, Bool.or_eq_true, Bool.and_eq_true, beq_iff_eq] at hin
    exact hin.imp_right And.left
  | commandLine | search => simpa [takesIn, KeyPress.Leaves] using hin
  | dialog => exact .inl (by simpa [takesIn] using hin)
  | stack | widget => exact absurd hc (by decide)

namespace KeyPress

variable {press : KeyPress}

/-- Only the enter key submits. -/
theorem code_of_submit (h : press.category = .submit) : press.code = .enter := by
  obtain ⟨code, mods⟩ := press
  cases code with
  | enter => rfl
  | char c =>
    simp only [category] at h
    split at h
    · exact absurd h (by decide)
    · split at h
      · exact absurd h (by decide)
      · exact absurd h (charCategory_stays c).2
  | _ => exact absurd h (by simp [category])

/-- The token of the enter key ends in an angle bracket, whatever is held with it, and neither
normal nor visual mode binds it. -/
theorem token_of_submit (h : press.category = .submit) :
    (∃ front, press.token.toList = front ++ ['>']) ∧
      press.token ∉ Keymap.defaultNormal.keys ++ Keymap.defaultVisual.keys ++ [escapeToken] := by
  have hcode : press.code = .enter := code_of_submit h
  have hbracket : press.isControlBracket = false := by simp [isControlBracket, hcode]
  constructor
  · refine ⟨press.marks ++ '<' :: "Enter".toList, ?_⟩
    simp [token, hbracket, hcode, KeyCode.label, bracketed]
  · obtain ⟨code, mods⟩ := press
    obtain rfl : code = .enter := hcode
    obtain ⟨shift, ctrl, alt, metaKey⟩ := mods
    revert shift ctrl alt metaKey
    decide +kernel

end KeyPress

/-! ## 2. What they do -/

/-- Nothing that a field must leave alone has changed. -/
structure State.Spares (s t : State) : Prop where
  position : t.position = s.position
  depth : t.depth = s.depth
  registers : t.registers = s.registers
  activeRegister : t.activeRegister = s.activeRegister
  lastChange : t.lastChange = s.lastChange
  lastSearch : t.lastSearch = s.lastSearch

namespace State

variable {s : State} {settings : Settings} {input : Input}

theorem clearBuffer_spares (s : State) : s.Spares s.clearBuffer := ⟨rfl, rfl, rfl, rfl, rfl, rfl⟩

/-- Escaping is no change that could be repeated. -/
theorem escape_spares (s : State) (settings : Settings) :
    s.Spares (s.execute settings (.bare ⟨"escape", Action.escape⟩ escapeToken)).1 := by
  have hforgets : ¬ Change.isRepeatable
      (Resolved.bare ⟨"escape", Action.escape⟩ escapeToken).body = true := by
    decide +kernel
  rw [execute_fst, if_neg hforgets]
  exact ⟨rfl, rfl, rfl, rfl, rfl, rfl⟩

/-- A key with a name that the mode does not bind is refused. -/
theorem react_of_named {m : Keymap} (hmode : s.mode.Gathers)
    (hm : Keymaps.default.forMode? s.mode = some m) {front : List Char}
    (ht : input.press.token.toList = front ++ ['>']) (hunbound : input.press.token ∉ m.keys)
    (hne : input.press.token ≠ escapeToken) :
    s.react .default settings input = (s.clearBuffer, none) := by
  rw [react_eq_token hm]
  exact token_of_invalid (gathers_iff.mpr hmode) hne (m.resolveKeys_named ht hunbound s.keys)

/-- **A key that leaves a field** escapes, or is refused. -/
theorem react_of_leaves (hmode : s.mode.Gathers) (h : input.press.Leaves) :
    s.react .default settings input
        = s.execute settings (.bare ⟨"escape", Action.escape⟩ escapeToken) ∨
      s.react .default settings input = (s.clearBuffer, none) := by
  have hsearch : s.mode ≠ .search := by
    rcases hmode with hm | hm
    · rw [hm]; decide
    · rw [hm]; decide
  obtain ⟨m, hm, -⟩ := s.default_escape hsearch
  rcases h with hescape | hsubmit
  · cases hplain : input.press.isPlainEscape with
    | true => exact .inl (react_of_plain hsearch hplain)
    | false =>
      obtain ⟨⟨front, ht⟩, hunbound⟩ := KeyPress.token_of_not_plain hescape hplain
      exact .inr (react_of_named hmode hm ht (fun hkey => hunbound (Keymaps.mem_keys hm hkey))
        (KeyPress.token_ne_escape hescape hplain))
  · obtain ⟨⟨front, ht⟩, hunbound⟩ := KeyPress.token_of_submit hsubmit
    simp only [List.mem_append, List.mem_singleton, not_or] at hunbound
    obtain ⟨⟨hnormal, hvisual⟩, hne⟩ := hunbound
    refine .inr (react_of_named hmode hm ht ?_ hne)
    rcases hmode with hn | hv
    · rw [hn] at hm
      obtain rfl := Option.some.inj hm
      exact hnormal
    · rw [hv] at hm
      obtain rfl := Option.some.inj hm
      exact hvisual

/-- Neither way anything is sent, and the stack is left alone. -/
theorem spares_of_leaves (hmode : s.mode.Gathers) (h : input.press.Leaves) :
    (s.react .default settings input).2 = none ∧
      s.Spares (s.react .default settings input).1 := by
  rcases react_of_leaves hmode h with heq | heq
  · rw [heq]
    exact ⟨rfl, s.escape_spares settings⟩
  · rw [heq]
    exact ⟨rfl, s.clearBuffer_spares⟩

end State

/-! ## 3. Every engine with the default keymaps -/

/-- **Typing in a field never acts on the stack.**  An engine with the default keymaps is in
normal or visual mode, and anything may be half typed.  Whatever is typed in a text field, a
command line, a search field or a dialog: it sends nothing but news of the mode, the selection
and the buffer, and cursor, depth, registers, last change and last search stay as they were. -/
theorem Engine.field_leaves_stack {η : Type} {e : Engine η} (hk : e.keymaps = .default)
    (hmode : e.state.mode = .normal ∨ e.state.mode = .visual) (input : Input)
    {context : Context} (hc : context.isField = true) :
    let result := e.handleEvent input context
    let s := e.state
    let t := result.1.state
    (∀ c ∈ result.2.commands, c.IsNews) ∧
      t.position = s.position ∧ t.depth = s.depth ∧ t.registers = s.registers ∧
      t.activeRegister = s.activeRegister ∧ t.lastChange = s.lastChange ∧
      t.lastSearch = s.lastSearch := by
  intro result s t
  rcases e.handleEvent_cases input context with
    ⟨htakes, hstate, hcommands⟩ | ⟨-, hstate, hcommands⟩
  · have hleaves : input.press.Leaves := State.leaves_of_takes hmode hc htakes
    rw [hk] at hstate hcommands
    obtain ⟨hsilent, hspares⟩ :=
      @State.spares_of_leaves s e.settings input hmode hleaves
    have hreact : t = (s.react .default e.settings input).1 := hstate
    rw [← hreact] at hspares
    refine ⟨?_, hspares.position, hspares.depth, hspares.registers, hspares.activeRegister,
      hspares.lastChange, hspares.lastSearch⟩
    intro c hc
    rw [hcommands, State.step, hsilent, Option.toList_none, List.nil_append] at hc
    exact State.isNews_of_mem hc
  · have hsame : t = s := hstate
    rw [hcommands, hsame]
    exact ⟨fun _ hc => absurd hc (by simp), rfl, rfl, rfl, rfl, rfl, rfl⟩

/-- Half a deletion of three items into a register is typed, two items being selected, when the
enter key is pressed in a cell together with control. -/
theorem Engine.field_leaves_half_deletion :
    let e : Engine Unit :=
      (Setup.start { depth := 5 }).run
        (Engine.typing ['y', 'y', 'v', 'j', '"', 'a', '3'])
    let input : Input := .key { code := .enter, mods := { ctrl := true } }
    let result := e.handleEvent input .cell
    let s := e.state
    let t := result.1.state
    (s.mode = .visual ∧ s.keys = ["\"", "a", "3"] ∧ result.2.handled = true ∧
        result.2.commands = [.bufferUpdate ""] ∧ t.selection = some ⟨1, 2⟩) ∧
      (∀ c ∈ result.2.commands, c.IsNews) ∧
      t.position = s.position ∧ t.depth = s.depth ∧ t.registers = s.registers ∧
      t.activeRegister = s.activeRegister ∧ t.lastChange = s.lastChange ∧
      t.lastSearch = s.lastSearch := by
  intro e input result s t
  have hmode : s.mode = .visual := by decide +kernel
  exact ⟨⟨hmode, by decide +kernel⟩, field_leaves_stack rfl (.inr hmode) input rfl⟩

end ModalStack
