/-
# Received text

What a user types reaches the engine as presses of keys or, where it was composed elsewhere, as
received characters.  A received character amounts to the press of that character without
modifiers (`Input.press`), and that is all that most of the engine looks at: whether it takes the
input, and which token it looks up.  A search alone looks at the input itself, and there too both
are typed.

They part over the control characters in a search.  The press of one types nothing, and the
received one goes on the pattern (`Engine.received_control`).  There is no other difference
(`Engine.received_as_pressed_iff`), so a host may deliver text in either way, as long as it keeps
control characters out of searches (`Engine.run_pressed`).
-/
import ModalStack.Proofs.TypedPresses

namespace ModalStack

/-! ## 1. Searches -/

namespace State

variable {s : State} {c : Char} {segmentation : Text.Segmentation}

/-- In a search the press of a character types it, unless it is a control character. -/
theorem searchInput_plain (s : State) (c : Char) :
    s.searchInput (.key (.plain c)) segmentation =
      if isControl c then (s, none) else (s.appendToPattern (String.singleton c), none) := by
  have habandons : abandonsSearch (.plain c) = false := by
    simp [abandonsSearch, KeyPress.plain, Modifiers.isChord]
  have hprintable : (KeyPress.plain c).printable = if isControl c then none else some c := by
    simp [KeyPress.printable, KeyPress.plain, Modifiers.isChord]
  have henter : (KeyPress.plain c).code ≠ .enter := by simp [KeyPress.plain]
  have hbackspace : (KeyPress.plain c).code ≠ .backspace := by simp [KeyPress.plain]
  simp only [searchInput, searchPress, habandons, Bool.false_eq_true, if_false, henter, hbackspace,
    hprintable]
  cases isControl c with
  | true => rfl
  | false => rfl

/-- A pattern that has grown is a different one. -/
theorem appendToPattern_ne (s : State) (c : Char) :
    s.appendToPattern (String.singleton c) ≠ s := by
  intro heq
  have hpattern : some (s.searchPattern.getD "" ++ String.singleton c) = s.searchPattern :=
    congrArg searchPattern heq
  have hlength := congrArg (fun p : Option String => (p.getD "").toList.length) hpattern
  simp at hlength

theorem searchInput_received_iff :
    s.searchInput (.received c) segmentation = s.searchInput (.key (.plain c)) segmentation ↔
      isControl c = false := by
  rw [searchInput_plain]
  cases isControl c with
  | true => exact iff_of_false (fun heq => s.appendToPattern_ne c (Prod.mk.inj heq).1) (by simp)
  | false => exact iff_of_true rfl rfl

/-- **Received and pressed characters in one step of a state.** -/
theorem react_received_iff (s : State) (keymaps : Keymaps) (settings : Settings) (c : Char) :
    s.react keymaps settings (.received c) = s.react keymaps settings (.key (.plain c)) ↔
      ¬ (s.mode = .search ∧ isControl c = true) := by
  cases hm : keymaps.forMode? s.mode with
  | none =>
    have hmode : s.mode = .search := mode_eq_search_of_forMode? hm
    rw [react_of_search hmode, react_of_search hmode, searchInput_received_iff]
    simp [hmode]
  | some m =>
    have hmode : s.mode ≠ .search := by
      intro heq
      exact absurd hm (by simp [heq, Keymaps.forMode?])
    -- everywhere else the token decides, and the tokens are the same
    rw [react_eq_token hm, react_eq_token hm]
    exact iff_of_true rfl fun h => hmode h.1

end State

/-! ## 2. One input -/

namespace Engine

variable {η : Type} {e : Engine η} {c : Char}

/-- A received character that is no control character in a search is as good as pressed. -/
theorem handleEvent_received (h : ¬ (e.state.mode = .search ∧ isControl c = true))
    (context : Context) :
    e.handleEvent (.received c) context = e.handleEvent (.key (.plain c)) context := by
  have hpress : (Input.received c).press = (Input.key (.plain c)).press := rfl
  have hreact := (e.state.react_received_iff e.keymaps e.settings c).mpr h
  simp only [handleEvent, State.step, hpress, hreact]

/-- **A control character in a search** is typed if it was received, and not if it was pressed.
The listeners hear of neither. -/
theorem received_control (hmode : e.state.mode = .search) (hc : isControl c = true)
    (context : Context) :
    e.handleEvent (.received c) context
        = ({ e with state := e.state.appendToPattern (String.singleton c) }, e.sent []) ∧
      e.handleEvent (.key (.plain c)) context = (e, e.sent []) := by
  have htakes (press : KeyPress) : e.state.takes context press = true := by
    simp only [State.takes, hmode]
  have hnews (text : String) : State.news e.state (e.state.appendToPattern text) = [] := by
    simp [State.news, State.appendToPattern]
  constructor
  · simp only [handleEvent, htakes, if_true, State.step, State.react_of_search hmode,
      State.searchInput, hnews]
    rfl
  · simp only [handleEvent, htakes, if_true, State.step, State.react_of_search hmode,
      State.searchInput_plain, hc, State.news]
    simp

/-- **Received characters are as good as pressed ones, but for control characters in searches.**
Whatever the engine and wherever the user types, receiving a character and the press of that
character, with no modifier held, lead to the same engine and the same report exactly if no search
is going on or the character is no control character. -/
theorem received_as_pressed_iff (e : Engine η) (context : Context) (c : Char) :
    e.handleEvent (.received c) context = e.handleEvent (.key (.plain c)) context ↔
      ¬ (e.state.mode = .search ∧ isControl c = true) := by
  constructor
  · rintro heq ⟨hmode, hc⟩
    obtain ⟨hreceived, hpressed⟩ := received_control hmode hc context
    rw [hreceived, hpressed] at heq
    have hstate : e.state.appendToPattern (String.singleton c) = e.state :=
      congrArg state (Prod.mk.inj heq).1
    exact e.state.appendToPattern_ne c hstate
  · intro h
    exact handleEvent_received h context

/-- A search has begun, and the first control character is received. -/
theorem received_not_as_pressed :
    ∃ (e : Engine Unit) (context : Context) (c : Char), e.Reachable {} ∧
      e.handleEvent (.received c) context ≠ e.handleEvent (.key (.plain c)) context ∧
      (e.handleEvent (.received c) context).1.state.searchPattern = some "\x01" ∧
      (e.handleEvent (.key (.plain c)) context).1.state.searchPattern = some "" := by
  let e : Engine Unit := (Setup.start {}).run (typing ['/'])
  have hmode : e.state.mode = .search := by decide +kernel
  have hc : isControl '\x01' = true := by decide
  refine ⟨e, .stack, '\x01', Reachable.start.run _, ?_, by decide +kernel, by decide +kernel⟩
  intro heq
  have hstate := congrArg (fun r => r.1.state.searchPattern) heq
  exact absurd hstate (by decide +kernel)

/-! ## 3. Runs -/

/-- The operation with a press in the place of a received character. -/
def Operation.pressed : Operation → Operation
  | .event input context => .event (.key input.press) context
  | op => op

/-- The operation hands over no control character as received. -/
def Operation.IsPlain : Operation → Prop
  | .event (.received c) _ => isControl c = false
  | _ => True

theorem perform_pressed {op : Operation} (h : op.IsPlain) :
    e.perform op.pressed = e.perform op := by
  cases op with
  | event input context =>
    cases input with
    | key press => rfl
    | received c =>
      have hc : isControl c = false := h
      exact (handleEvent_received (by simp [hc]) context).symm
  | submitLine _ | setDepth _ | setPendingCount _ | storeRegister _ _ => rfl

/-- **A host may press what it received.**  If none of the received characters is a control
character, pressing them instead leads to the same engine and sends the same commands. -/
theorem run_pressed {ops : List Operation} (h : ∀ op ∈ ops, op.IsPlain) :
    e.run (ops.map Operation.pressed) = e.run ops ∧
      e.sending (ops.map Operation.pressed) = e.sending ops := by
  induction ops generalizing e with
  | nil => exact ⟨rfl, rfl⟩
  | cons op rest ih =>
    obtain ⟨hop, hrest⟩ := List.forall_mem_cons.mp h
    obtain ⟨hrun, hsending⟩ := @ih (e.perform op).1 hrest
    rw [List.map_cons, run, run, sending, sending, perform_pressed hop]
    exact ⟨hrun, by rw [hsending]⟩

end Engine

end ModalStack
