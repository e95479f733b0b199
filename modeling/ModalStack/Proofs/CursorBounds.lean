/-
# The cursor stays on the stack

Under the default keymaps the cursor never leaves the stack, something is selected exactly in
visual mode, and what is selected lies on the stack and ends at the cursor.  An empty stack
counts as one of depth 1 here: its cursor stands at 1.

The invariant is `State.Bounded`.  It says of the head of the selection that it is the cursor,
and leaves the bounds of the head to those of the cursor.  Which actions keep it depends on the
mode: an action that changes the mode and forgets the selection would break it in visual mode,
but the default keymaps bind those in normal mode only, where nothing is selected.
-/
import ModalStack.Proofs.Reachable
import ModalStack.Proofs.Turns

namespace ModalStack

/-! ## 1. The invariant -/

/-- The cursor is on the stack, and so is the selection that visual mode has. -/
structure State.Bounded (s : State) : Prop where
  one_le : 1 ≤ s.position
  le_depth : s.position ≤ max 1 s.depth
  selected_iff : s.selection.isSome = true ↔ s.mode = .visual
  anchor : ∀ sel ∈ s.selection, 1 ≤ sel.anchor ∧ sel.anchor ≤ max 1 s.depth
  head : ∀ sel ∈ s.selection, sel.head = s.position

namespace State.Bounded

variable {s t : State}

/-- The invariant looks at four fields only. -/
theorem congr (h : s.Bounded) (hm : t.mode = s.mode) (hp : t.position = s.position)
    (hd : t.depth = s.depth) (hsel : t.selection = s.selection) : t.Bounded where
  one_le := by rw [hp]; exact h.one_le
  le_depth := by rw [hp, hd]; exact h.le_depth
  selected_iff := by rw [hsel, hm]; exact h.selected_iff
  anchor := by rw [hsel, hd]; exact h.anchor
  head := by rw [hsel, hp]; exact h.head

/-- Without a selection, and outside visual mode, the bounds of the cursor are all. -/
theorem of_unselected (mode : Mode) (hv : mode ≠ .visual) (hm : s.mode = mode)
    (h₁ : 1 ≤ s.position) (h₂ : s.position ≤ max 1 s.depth) (hsel : s.selection = none) :
    s.Bounded where
  one_le := h₁
  le_depth := h₂
  selected_iff := by rw [hsel, hm]; exact ⟨fun h => absurd h (by simp), fun h => absurd h hv⟩
  anchor := by rw [hsel]; exact fun _ h => absurd h (by simp)
  head := by rw [hsel]; exact fun _ h => absurd h (by simp)

theorem selection_eq_none (h : s.Bounded) (hm : s.mode ≠ .visual) : s.selection = none := by
  cases hsel : s.selection with
  | none => rfl
  | some sel => exact absurd (h.selected_iff.mp (by rw [hsel]; rfl)) hm

/-- In visual mode the selection runs from an anchor on the stack to the cursor. -/
theorem exists_selection (h : s.Bounded) (hm : s.mode = .visual) :
    ∃ anchor, s.selection = some ⟨anchor, s.position⟩ ∧ 1 ≤ anchor ∧ anchor ≤ max 1 s.depth := by
  cases hsel : s.selection with
  | none => exact absurd (h.selected_iff.mpr hm) (by simp [hsel])
  | some sel =>
    obtain ⟨h₁, h₂⟩ := h.anchor sel (by rw [hsel]; rfl)
    have hhead : sel.head = s.position := h.head sel (by rw [hsel]; rfl)
    exact ⟨sel.anchor, by rw [← hhead], h₁, h₂⟩

/-! ## 2. What the operations do to it -/

theorem moveTo (hm : s.mode ≠ .visual) (position : Int) : (s.moveTo position).Bounded :=
  of_unselected _ hm rfl (one_le_clampSigned position s.depth) (clampSigned_le position s.depth) rfl

/-- A motion keeps the anchor and takes the head along. -/
theorem moveBy (h : s.Bounded) (offset : Int) : (s.moveBy offset).Bounded := by
  have h₁ : 1 ≤ (s.moveBy offset).position := by
    rw [moveBy_position]; exact one_le_clampSigned _ _
  have h₂ : (s.moveBy offset).position ≤ max 1 (s.moveBy offset).depth := by
    rw [moveBy_position, moveBy_depth]; exact clampSigned_le _ _
  by_cases hm : s.mode = .visual
  · obtain ⟨anchor, hsel, ha₁, ha₂⟩ := h.exists_selection hm
    have hnew : (s.moveBy offset).selection = some ⟨anchor, (s.moveBy offset).position⟩ :=
      moveBy_selection_of_visual offset hm hsel
    refine ⟨h₁, h₂, ?_, ?_, ?_⟩
    · rw [hnew, moveBy_mode]
      exact ⟨fun _ => hm, fun _ => rfl⟩
    · rintro sel hin
      rw [hnew] at hin
      obtain rfl := Option.some.inj hin
      rw [moveBy_depth]
      exact ⟨ha₁, ha₂⟩
    · rintro sel hin
      rw [hnew] at hin
      obtain rfl := Option.some.inj hin
      rfl
  · refine of_unselected _ hm (moveBy_mode s offset) h₁ h₂ ?_
    rw [moveBy_selection]
    unfold selectionTowards
    split
    · rename_i hv; exact absurd hv hm
    · rfl

theorem jumpTo (h : s.Bounded) (position : Int) : (s.jumpTo position).Bounded := by
  unfold State.jumpTo
  split
  · exact h.moveBy _
  · rename_i hm
    exact moveTo hm position

/-- Deleting leaves the cursor where it is, or on the new top. -/
theorem afterRemoval (s : State) (removed : Nat) (register : String) {mode : Mode}
    (hm : mode ≠ .visual) : { s.afterRemoval removed register with mode := mode }.Bounded := by
  refine of_unselected _ hm rfl (Nat.le_max_right _ _) ?_ rfl
  simp only [State.afterRemoval]
  omega

theorem afterCopy (h : s.Bounded) (register : String) {mode : Mode} (hm : mode ≠ .visual) :
    { s.afterCopy register with mode := mode }.Bounded :=
  of_unselected _ hm rfl h.one_le h.le_depth rfl

theorem enterVisual (h : s.Bounded) : s.enterVisual.Bounded where
  one_le := h.one_le
  le_depth := h.le_depth
  selected_iff := ⟨fun _ => rfl, fun _ => rfl⟩
  anchor := by
    rintro sel hin
    obtain rfl := Option.some.inj hin
    exact ⟨h.one_le, h.le_depth⟩
  head := by
    rintro sel hin
    obtain rfl := Option.some.inj hin
    rfl

theorem withDepth (h : s.Bounded) (depth : Nat) : (s.withDepth depth).Bounded where
  one_le := one_le_clamp _ _
  le_depth := clamp_le _ _
  selected_iff := by simpa [State.withDepth] using h.selected_iff
  anchor := by
    rintro sel hin
    obtain ⟨old, -, rfl⟩ := Option.map_eq_some_iff.mp hin
    exact ⟨one_le_clamp _ _, clamp_le _ _⟩
  head := by
    rintro sel hin
    obtain ⟨old, hold, rfl⟩ := Option.map_eq_some_iff.mp hin
    simp [State.withDepth, Selection.clamp, h.head old hold]

/-! ## 3. What actions and searches do to it -/

/-- **Every action keeps the cursor on the stack**, in the modes that bind it. -/
theorem action {i : Invocation} {mode : Mode} {run : Invocation → Reaction}
    (h : i.state.Bounded) (hm : i.state.mode = mode) (hb : Bound mode run) :
    ((run i).after i.state).Bounded := by
  cases hb with
  | moveDown _ => exact h.moveBy _
  | moveUp _ => exact h.moveBy _
  | gotoPosition _ => exact h.jumpTo _
  | gotoBottom _ => exact h.jumpTo _
  | gotoTop _ =>
    unfold Action.gotoTop
    split
    · exact h.jumpTo _
    · exact h.jumpTo _
  | gotoNamed =>
    unfold Action.gotoNamed
    split
    · exact h
    · exact h
  | delete _ =>
    unfold Action.delete
    rw [Action.finish_after]
    split
    · exact afterRemoval i.state _ _ (by decide)
    · exact afterRemoval i.state _ _ (by decide)
  | yank _ =>
    unfold Action.yank
    rw [Action.finish_after]
    split
    · exact h.afterCopy _ (by decide)
    · exact h.afterCopy _ (by decide)
  | change _ =>
    unfold Action.change
    rw [Action.finish_after]
    exact h.afterCopy _ (by decide)
  | deleteToPosition =>
    have hv : i.state.mode ≠ .visual := by rw [hm]; decide
    unfold Action.deleteToPosition
    split
    · rw [Action.finish_after]
      exact afterRemoval i.state _ _ hv
    · exact h
  | yankToPosition =>
    have hv : i.state.mode ≠ .visual := by rw [hm]; decide
    unfold Action.yankToPosition
    split
    · rw [Action.finish_after]
      exact h.afterCopy _ hv
    · exact h
  | paste after =>
    have hv : i.state.mode ≠ .visual := by rw [hm]; decide
    exact h.afterCopy _ hv
  | swap =>
    unfold Action.swap
    rw [Action.finish_after]
    exact h
  | rotate =>
    unfold Action.rotate
    rw [Action.finish_after]
    exact h
  | openItem above =>
    exact of_unselected .insert (by decide) rfl h.one_le h.le_depth rfl
  | insertMode =>
    -- the selection stays as it is, and in normal mode there is none
    have hsel : i.state.selection = none := h.selection_eq_none (by rw [hm]; decide)
    exact of_unselected .insert (by decide) rfl h.one_le h.le_depth hsel
  | visualMode => exact h.enterVisual
  | commandMode =>
    exact of_unselected .command (by decide) rfl h.one_le h.le_depth rfl
  | search direction =>
    exact of_unselected .search (by decide) rfl h.one_le h.le_depth rfl
  | nextMatch reverse => exact h
  | dotRepeat => exact h
  | escape =>
    exact of_unselected .normal (by decide) rfl h.one_le h.le_depth rfl

/-- Typing a search leaves the cursor alone, and nothing is selected. -/
theorem searchInput (h : s.Bounded) (hm : s.mode = .search) (input : Input)
    (segmentation : Text.Segmentation) : (s.searchInput input segmentation).1.Bounded := by
  obtain ⟨mode, _, _, _, hmode, heq, -⟩ := s.searchInput_eq input segmentation
  have hsel : s.selection = none := h.selection_eq_none (by rw [hm]; decide)
  have hv : mode ≠ .visual := by
    rcases hmode with rfl | rfl
    · rw [hm]
      decide
    · decide
  rw [heq]
  exact of_unselected mode hv rfl h.one_le h.le_depth hsel

/-- **Every step keeps the cursor on the stack.** -/
theorem react (h : s.Bounded) (settings : Settings) (input : Input) :
    (s.react .default settings input).1.Bounded := by
  rcases s.react_default settings input with ⟨r, hb, heq⟩ | ⟨_, _, _, heq⟩ | ⟨hm, heq⟩
  · rw [heq]
    have hafter : ((r.reaction s settings).after s).Bounded :=
      @action (r.invocation s settings) _ _ h rfl hb
    exact hafter.congr execute_mode execute_position execute_depth execute_selection
  · rw [heq]; exact h.congr rfl rfl rfl rfl
  · rw [heq]; exact h.searchInput hm input _

theorem afterLine (h : s.Bounded) : s.afterLine.Bounded :=
  of_unselected .normal (by decide) rfl h.one_le h.le_depth rfl

theorem invariant (settings : Settings) : Invariant .default settings State.Bounded where
  react input h := h.react settings input
  afterLine h := h.afterLine
  withDepth depth h := h.withDepth depth
  withCount _ h := h.congr rfl rfl rfl rfl
  withRegisters _ h := h.congr rfl rfl rfl rfl

/-- An engine starts with the cursor on the stack. -/
theorem start (setup : Setup) : setup.state.Bounded := by
  have hdepth : (({} : State).withDepth setup.depth).Bounded :=
    (of_unselected .normal (by decide) rfl (Nat.le_refl 1)
      (Nat.le_max_left 1 0) rfl).withDepth setup.depth
  unfold Setup.state
  split
  · exact hdepth.enterVisual.congr rfl rfl rfl rfl
  · rename_i hm
    exact of_unselected _ hm rfl hdepth.one_le hdepth.le_depth rfl

end State.Bounded

/-! ## 4. Every reachable engine -/

theorem Engine.Reachable.bounded {η : Type} {setup : Setup} {e : Engine η}
    (hk : setup.keymaps = .default) (h : e.Reachable setup) : e.state.Bounded :=
  h.of_invariant (by rw [hk]; exact State.Bounded.invariant setup.settings)
    (State.Bounded.start setup)

/-- **The cursor stays on the stack.**  Whatever a host does to an engine with the default
keymaps: the cursor is a position of the stack, something is selected exactly in visual mode,
and both ends of a selection are positions of the stack, the head being the cursor. -/
theorem Engine.Reachable.cursor_on_stack {η : Type} {setup : Setup} {e : Engine η}
    (hk : setup.keymaps = .default) (h : e.Reachable setup) :
    (1 ≤ e.state.position ∧ e.state.position ≤ max e.state.depth 1) ∧
      (e.state.selection.isSome = true ↔ e.state.mode = .visual) ∧
      ∀ sel ∈ e.state.selection,
        (1 ≤ sel.anchor ∧ sel.anchor ≤ max e.state.depth 1) ∧
          (1 ≤ sel.head ∧ sel.head ≤ max e.state.depth 1) ∧ sel.head = e.state.position := by
  have hb : e.state.Bounded := h.bounded hk
  have hle : e.state.position ≤ max e.state.depth 1 := by
    rw [Nat.max_comm]; exact hb.le_depth
  refine ⟨⟨hb.one_le, hle⟩, hb.selected_iff, ?_⟩
  rintro sel hsel
  have hhead : sel.head = e.state.position := hb.head sel hsel
  obtain ⟨ha₁, ha₂⟩ := hb.anchor sel hsel
  refine ⟨⟨ha₁, by rw [Nat.max_comm]; exact ha₂⟩, ?_, hhead⟩
  rw [hhead]
  exact ⟨hb.one_le, hle⟩

set_option maxRecDepth 4000 in
/-- Four items are selected, upwards from the bottom, and then the host reports that only two
are left. -/
theorem Engine.Reachable.cursor_on_shrunk_stack :
    let e : Engine Unit :=
      (Setup.start { depth := 5 }).run (Engine.typing ['v', 'j', 'j', 'j'] ++ [.setDepth 2])
    (e.state.mode = .visual ∧ e.state.depth = 2 ∧ e.state.position = 2) ∧
      (1 ≤ e.state.position ∧ e.state.position ≤ max e.state.depth 1) ∧
      (e.state.selection.isSome = true ↔ e.state.mode = .visual) ∧
      ∀ sel ∈ e.state.selection,
        (1 ≤ sel.anchor ∧ sel.anchor ≤ max e.state.depth 1) ∧
          (1 ≤ sel.head ∧ sel.head ≤ max e.state.depth 1) ∧ sel.head = e.state.position := by
  intro e
  exact ⟨⟨rfl, rfl, rfl⟩, cursor_on_stack rfl (Engine.Reachable.start.run _)⟩

end ModalStack
