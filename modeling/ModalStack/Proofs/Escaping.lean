/-
# What an escape leaves behind

The user escapes to be rid of all that is half done.  The engine takes every escape, wherever it
is typed.  What it then does depends on who recognises the escape: the category of a key is that
of an escape whatever modifiers are held, but the keymaps bind the token of the escape key, and
that changes with the modifiers.  A search looks at the key itself.

So a plain escape (`KeyPress.isPlainEscape`) runs the action of the keymap, which settles the
state.  One with modifiers is a token that no keymap knows, and of which no command can be made:
in normal and visual mode the half-typed command is dropped, as with any such token, and in the
other modes nothing happens at all.  A search is left by every escape, but the action is not
run, and a count that the host has set outlives it.

This gives the exact condition under which an escape settles the engine
(`State.isEscapedBy`, `Engine.Reachable.escape_settles_iff`).
-/
import ModalStack.Proofs.CursorBounds
import ModalStack.Proofs.LastKeys

namespace ModalStack

/-! ## 1. Settled states -/

/-- Normal mode, with nothing half done. -/
structure State.Settled (s : State) : Prop where
  mode : s.mode = .normal
  buffer : s.buffer = ""
  keys : s.keys = []
  pendingCount : s.pendingCount = none
  selection : s.selection = none

/-- An escape that comes with no modifier, or as the opening bracket with control. -/
def KeyPress.isPlainEscape (press : KeyPress) : Bool :=
  press.isControlBracket || press.code == .escape && press.mods.isEmpty

/-- The escape settles the state: it is plain, or else the mode sees through the modifiers.  A
count that the host has set is only dropped with the action of the keymap. -/
def State.isEscapedBy (s : State) (press : KeyPress) : Bool :=
  match s.mode with
  | .normal => press.isPlainEscape || s.pendingCount.isNone
  | .search => s.pendingCount.isNone
  | .insert | .visual | .command => press.isPlainEscape

/-! ## 2. The tokens of escapes -/

/-- No character escapes or submits by itself. -/
theorem charCategory_stays (c : Char) : charCategory c ≠ .escape ∧ charCategory c ≠ .submit := by
  unfold charCategory
  split
  · decide
  · split
    · decide
    · split
      · decide
      · decide

namespace KeyPress

variable {press : KeyPress}

/-- An escape is the escape key, or the opening bracket with control. -/
theorem code_of_escape (h : press.category = .escape) :
    press.isControlBracket = true ∨ press.code = .escape := by
  obtain ⟨code, mods⟩ := press
  cases code with
  | escape => exact .inr rfl
  | char c =>
    simp only [category] at h
    split at h
    · rename_i hbracket
      exact .inl hbracket
    · split at h
      · exact absurd h (by decide)
      · exact absurd h (charCategory_stays c).1
  | _ => exact absurd h (by simp [category])

/-- The token of a plain escape is that of the escape key. -/
theorem token_of_plain (h : press.isPlainEscape = true) : press.token = escapeToken := by
  rcases Bool.or_eq_true_iff.mp h with hbracket | hkey
  · simp [token, hbracket]
  · obtain ⟨code, mods⟩ := press
    simp only [Bool.and_eq_true, beq_iff_eq] at hkey
    obtain ⟨rfl, hmods⟩ := hkey
    revert hmods
    obtain ⟨shift, ctrl, alt, metaKey⟩ := mods
    revert shift ctrl alt metaKey
    decide +kernel

/-- The token of any other escape ends in an angle bracket, and no keymap binds it. -/
theorem token_of_not_plain (h : press.category = .escape) (hplain : press.isPlainEscape = false) :
    (∃ front, press.token.toList = front ++ ['>']) ∧ press.token ∉ Keymaps.default.keys := by
  obtain ⟨hbracket, hkey⟩ := Bool.or_eq_false_iff.mp hplain
  have hcode : press.code = .escape := (code_of_escape h).resolve_left (by simp [hbracket])
  constructor
  · refine ⟨press.marks ++ '<' :: "Escape".toList, ?_⟩
    simp [token, hbracket, hcode, KeyCode.label, bracketed]
  · obtain ⟨code, mods⟩ := press
    obtain rfl : code = .escape := hcode
    obtain ⟨shift, ctrl, alt, metaKey⟩ := mods
    revert shift ctrl alt metaKey
    decide +kernel

theorem token_ne_escape (h : press.category = .escape) (hplain : press.isPlainEscape = false) :
    press.token ≠ escapeToken := by
  obtain ⟨-, hunbound⟩ := token_of_not_plain h hplain
  intro heq
  rw [heq] at hunbound
  exact absurd (by decide +kernel) hunbound

end KeyPress

/-- Nothing comes of an escape that is not plain. -/
theorem Keymap.resolveKeys_escape {m : Keymap} (hm : ∀ t ∈ m.keys, t ∈ Keymaps.default.keys)
    {press : KeyPress} (h : press.category = .escape) (hplain : press.isPlainEscape = false)
    (keys : List String) : m.resolveKeys (keys ++ [press.token]) = .invalid := by
  obtain ⟨⟨front, htoken⟩, hunbound⟩ := KeyPress.token_of_not_plain h hplain
  exact m.resolveKeys_named htoken (fun ht => hunbound (hm _ ht)) keys

/-! ## 3. What an escape does -/

namespace State

variable {s : State} {settings : Settings} {press : KeyPress} {context : Context}

/-- **Every escape is taken**, in every mode and wherever it is typed. -/
theorem takes_escape (h : press.category = .escape) : s.takes context press = true := by
  cases hm : s.mode with
  | insert => simp [takes, hm, h]
  | command => simp [takes, hm, h]
  | search => simp [takes, hm]
  | normal =>
    cases context with
    | _ => simp [takes, hm, takesIn, h]
  | visual =>
    cases context with
    | _ => simp [takes, hm, takesIn, h]

/-- The default keymaps bind the escape key in every mode but the search. -/
theorem default_escape (hm : s.mode ≠ .search) :
    ∃ m, Keymaps.default.forMode? s.mode = some m ∧
      m.action? escapeToken = some ⟨"escape", Action.escape⟩ := by
  cases hmode : s.mode with
  | normal => exact ⟨_, rfl, rfl⟩
  | insert => exact ⟨_, rfl, rfl⟩
  | visual => exact ⟨_, rfl, rfl⟩
  | command => exact ⟨_, rfl, rfl⟩
  | search => exact absurd hmode hm

/-- A plain escape runs the action of the keymap. -/
theorem react_of_plain {input : Input} (hm : s.mode ≠ .search)
    (h : input.press.isPlainEscape = true) :
    s.react .default settings input
      = s.execute settings (.bare ⟨"escape", Action.escape⟩ escapeToken) := by
  obtain ⟨m, hmap, haction⟩ := s.default_escape hm
  rw [react_eq_token hmap, KeyPress.token_of_plain h, token_escape haction]

/-- That settles the state. -/
theorem settled_of_plain (hm : s.mode ≠ .search) (h : press.isPlainEscape = true) :
    (s.react .default settings (.key press)).1.Settled := by
  have hreact := @react_of_plain s settings (.key press) hm h
  rw [hreact]
  constructor
  · rw [execute_mode]
    rfl
  · exact execute_buffer
  · exact execute_keys
  · rw [execute_fst]
  · rw [execute_selection]
    rfl

/-- Any other escape drops what is half typed in normal and visual mode. -/
theorem react_escape_gathers (hm : s.mode ≠ .search) (hgathers : s.gathers = true)
    (h : press.category = .escape) (hplain : press.isPlainEscape = false) :
    (s.react .default settings (.key press)).1 = s.clearBuffer := by
  obtain ⟨m, hmap, -⟩ := s.default_escape hm
  have hinvalid : m.resolveKeys (s.keys ++ [press.token]) = .invalid :=
    Keymap.resolveKeys_escape (fun t ht => Keymaps.mem_keys hmap ht) h hplain s.keys
  rw [react_eq_token hmap]
  exact congrArg Prod.fst
    (token_of_invalid hgathers (KeyPress.token_ne_escape h hplain) hinvalid)

/-- In insert mode and on the command line it does nothing. -/
theorem react_escape_else (hm : s.mode ≠ .search) (hgathers : s.gathers = false)
    (h : press.category = .escape) (hplain : press.isPlainEscape = false) :
    (s.react .default settings (.key press)).1 = s := by
  obtain ⟨m, hmap, -⟩ := s.default_escape hm
  have hunbound : m.action? press.token = none := by
    obtain ⟨-, hnot⟩ := KeyPress.token_of_not_plain h hplain
    cases ha : m.action? press.token with
    | none => rfl
    | some a => exact absurd (Keymaps.mem_keys hmap (Keymap.mem_keys_of_action? ha)) hnot
  have hne : press.token ≠ escapeToken := KeyPress.token_ne_escape h hplain
  simp [react, hmap, token, Input.press, hgathers, lookUp, hunbound, hne]

/-- A search is abandoned by every escape. -/
theorem searchInput_escape (h : press.category = .escape) (segmentation : Text.Segmentation) :
    s.searchInput (.key press) segmentation = (s.cancelSearch, none) := by
  have habandons : abandonsSearch press = true := by
    rcases KeyPress.code_of_escape h with hbracket | hcode
    · obtain ⟨hcode, hctrl⟩ := (Bool.and_eq_true _ _).mp hbracket
      simp [abandonsSearch, hcode, Modifiers.isChord, hctrl]
    · simp [abandonsSearch, hcode]
  simp [searchInput, searchPress, habandons]

theorem react_escape_search (hm : s.mode = .search) (h : press.category = .escape) :
    (s.react .default settings (.key press)).1 = s.cancelSearch := by
  rw [react_of_search hm, searchInput_escape h]

/-- The outcomes of an escape. -/
inductive Escaped (s : State) (press : KeyPress) (t : State) : Prop
  /-- The action of the keymap ran. -/
  | settled : s.mode ≠ .search → press.isPlainEscape = true → t.Settled → Escaped s press t
  | abandoned : s.mode = .search → t = s.cancelSearch → Escaped s press t
  /-- The token was refused. -/
  | dropped : s.mode ≠ .search → s.gathers = true → press.isPlainEscape = false →
      t = s.clearBuffer → Escaped s press t
  | ignored : s.mode ≠ .search → s.gathers = false → press.isPlainEscape = false →
      t = s → Escaped s press t

theorem react_escaped (s : State) (h : press.category = .escape) (settings : Settings) :
    s.Escaped press (s.react .default settings (.key press)).1 := by
  by_cases hm : s.mode = .search
  · exact .abandoned hm (react_escape_search hm h)
  · cases hplain : press.isPlainEscape with
    | true => exact .settled hm hplain (settled_of_plain hm hplain)
    | false =>
      cases hgathers : s.gathers with
      | true => exact .dropped hm hgathers hplain (react_escape_gathers hm hgathers h hplain)
      | false => exact .ignored hm hgathers hplain (react_escape_else hm hgathers h hplain)

/-! ## 4. When that settles the state -/

/-- **What every escape drops.**  Nothing is half typed after it, be it a command or a
search. -/
theorem Escaped.drops {t : State} (h : s.Escaped press t) (hg : s.Gathered .default) :
    t.buffer = "" ∧ t.keys = [] ∧ t.mode ≠ .search ∧
      (s.mode = .search → t.searchPattern = none) := by
  cases h with
  | settled hm hplain hsettled =>
    refine ⟨hsettled.buffer, hsettled.keys, ?_, fun hsearch => absurd hsearch hm⟩
    rw [hsettled.mode]
    decide
  | abandoned hm ht =>
    obtain ⟨hb, hk⟩ := hg.empty (by simp [gathers, hm])
    rw [ht]
    exact ⟨hb, hk, by simp [cancelSearch], fun _ => rfl⟩
  | dropped hm hgathers hplain ht =>
    rw [ht]
    exact ⟨rfl, rfl, hm, fun hsearch => absurd hsearch hm⟩
  | ignored hm hgathers hplain ht =>
    obtain ⟨hb, hk⟩ := hg.empty hgathers
    rw [ht]
    exact ⟨hb, hk, hm, fun hsearch => absurd hsearch hm⟩

/-- A state that is settled but for the count. -/
theorem settled_iff_count (hm : s.mode = .normal) (hb : s.buffer = "") (hk : s.keys = [])
    (hsel : s.selection = none) : s.Settled ↔ s.pendingCount.isNone = true := by
  rw [Option.isNone_iff_eq_none]
  constructor
  · intro h
    exact h.pendingCount
  · intro hcount
    exact ⟨hm, hb, hk, hcount, hsel⟩

theorem not_settled (hm : s.mode ≠ .normal) : ¬ s.Settled := fun h => hm h.mode

/-- **When an escape settles a state.** -/
theorem Escaped.settled_iff {t : State} (h : s.Escaped press t) (hb : s.Bounded)
    (hg : s.Gathered .default) : t.Settled ↔ s.isEscapedBy press = true := by
  cases h with
  | settled hm hplain hsettled =>
    have hescaped : s.isEscapedBy press = true := by
      cases hmode : s.mode with
      | search => exact absurd hmode hm
      | _ => simp [isEscapedBy, hmode, hplain]
    constructor
    · intro _
      exact hescaped
    · intro _
      exact hsettled
  | abandoned hm ht =>
    obtain ⟨hbuffer, hkeys⟩ := hg.empty (by simp [gathers, hm])
    have hsel : s.selection = none := hb.selection_eq_none (by simp [hm])
    have hescaped : s.isEscapedBy press = s.pendingCount.isNone := by simp [isEscapedBy, hm]
    rw [ht, hescaped]
    exact settled_iff_count rfl hbuffer hkeys hsel
  | dropped hm hgathers hplain ht =>
    rw [ht]
    rcases gathers_iff.mp hgathers with hmode | hmode
    · have hsel : s.selection = none := hb.selection_eq_none (by simp [hmode])
      have hescaped : s.isEscapedBy press = s.pendingCount.isNone := by
        simp [isEscapedBy, hmode, hplain]
      rw [hescaped]
      exact settled_iff_count hmode rfl rfl hsel
    · -- visual mode was not left
      have hnot : ¬ s.clearBuffer.Settled := not_settled (by simp [clearBuffer, hmode])
      simp [hnot, isEscapedBy, hmode, hplain]
  | ignored hm hgathers hplain ht =>
    rw [ht]
    have hne : s.mode ≠ .normal := by
      intro hmode
      simp [gathers, hmode] at hgathers
    have hescaped : s.isEscapedBy press = false := by
      cases hmode : s.mode with
      | search => exact absurd hmode hm
      | normal => exact absurd hmode hne
      | _ => simp [isEscapedBy, hmode, hplain]
    simp [hescaped, not_settled hne]

end State

/-! ## 5. Every reachable engine -/

/-- **What an escape does to a reachable engine.**  Under the default keymaps every escape is
handled, wherever it is typed; after it no command is half typed and no search is being typed.
It leaves normal mode with no count and no selection exactly under the condition that the mode
sets for it. -/
theorem Engine.Reachable.escape_settles_iff {η : Type} {setup : Setup} {e : Engine η}
    (hk : setup.keymaps = .default) (hr : e.Reachable setup) (context : Context)
    {press : KeyPress} (hpress : press.category = .escape) :
    let result := e.handleEvent (.key press) context
    result.2.handled = true ∧
      (result.1.state.buffer = "" ∧ result.1.state.keys = [] ∧
        result.1.state.mode ≠ .search ∧
        (e.state.mode = .search → result.1.state.searchPattern = none)) ∧
      (result.1.state.Settled ↔ e.state.isEscapedBy press = true) := by
  intro result
  have htakes : e.state.takes context (Input.key press).press = true := State.takes_escape hpress
  have hkeymaps : e.keymaps = .default := by rw [hr.keymaps, hk]
  have hstate : result.1.state = (e.state.react .default e.settings (.key press)).1 := by
    rw [← hkeymaps]
    exact (e.handleEvent_state _ context).trans (if_pos htakes)
  have hhandled : result.2.handled = true := by
    simp only [result, handleEvent, if_pos htakes]
    rfl
  have hg : e.state.Gathered .default := by
    rw [← hk]
    exact hr.gathered
  have hescaped := e.state.react_escaped hpress e.settings
  rw [hstate]
  exact ⟨hhandled, hescaped.drops hg, hescaped.settled_iff (hr.bounded hk) hg⟩

/-- A selection is dropped on a widget, together with a count and half a command. -/
theorem Engine.Reachable.escape_settles_selection :
    let e : Engine Unit :=
      (Setup.start { depth := 5 }).run
        (Engine.typing ['v', 'j', '2'] ++ [.setPendingCount (some 3)])
    let press : KeyPress := { code := .char '[', mods := { ctrl := true, alt := true } }
    let result := e.handleEvent (.key press) .widget
    (press.category = .escape ∧ e.state.isEscapedBy press = true ∧
        e.state.selection = some ⟨1, 2⟩ ∧ e.state.keys = ["2"]) ∧
      result.2.handled = true ∧
      (result.1.state.buffer = "" ∧ result.1.state.keys = [] ∧
        result.1.state.mode ≠ .search ∧
        (e.state.mode = .search → result.1.state.searchPattern = none)) ∧
      (result.1.state.Settled ↔ e.state.isEscapedBy press = true) := by
  intro e press result
  have hr : e.Reachable { depth := 5 } := Engine.Reachable.start.run _
  have hpress : press.category = .escape := by decide
  exact ⟨by decide +kernel, escape_settles_iff rfl hr .widget hpress⟩

/-- The escape key with control is handled in insert mode, and does nothing. -/
theorem Engine.Reachable.escape_in_vain :
    let e : Engine Unit := Setup.start { mode := .insert }
    let press : KeyPress := { code := .escape, mods := { ctrl := true } }
    let result := e.handleEvent (.key press) .stack
    e.Reachable { mode := .insert } ∧ press.category = .escape ∧
      result.2.handled = true ∧ result.1.state.mode = .insert :=
  ⟨.start, by decide +kernel⟩

end ModalStack
