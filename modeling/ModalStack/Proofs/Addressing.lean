/-
# What commands name

A host indexes its items with the positions that a command names.  Under the default keymaps
there are some, none of them twice, and all of them lie between 1 and the depth, where an empty
stack counts as one of depth 1 (`State.Addresses`).  So a host with items can always index
them.

A host without items cannot.  Its cursor stands at 1, visual mode selects what is under the
cursor, and deleting, copying or changing the selection then names position 1 of a stack that
has none.  That is the only way: a run from the cursor, a range, a swap and a rotation all
come out empty on an empty stack, and then no command is sent.
-/
import ModalStack.Proofs.CursorBounds

namespace ModalStack

/-! ## 1. Positions that a command may name -/

/-- The positions that a command names, if it names items. -/
def Command.positions? : Command → Option (List Nat)
  | .deleteItems positions _ | .yankItems positions _ | .changeItems positions _
  | .deleteToPosition positions _ _ | .yankToPosition positions _ _
  | .swapItems positions | .rotateItems positions => some positions
  | _ => none

/-- The positions name items of the stack; or, in visual mode, what is selected on an empty
stack. -/
structure State.Addresses (s : State) (positions : List Nat) : Prop where
  ne_nil : positions ≠ []
  nodup : positions.Nodup
  one_le : ∀ p ∈ positions, 1 ≤ p
  le_depth : ∀ p ∈ positions, p ≤ max 1 s.depth
  visual : s.depth = 0 → s.mode = .visual

/-- What a command promises its host when it is sent from a state and the engine goes to a
mode. -/
def Command.Fits (s : State) (mode : Mode) : Command → Prop
  | .deleteItems positions _ | .yankItems positions _
  | .deleteToPosition positions _ _ | .yankToPosition positions _ _ => s.Addresses positions
  | .changeItems positions _ => s.Addresses positions ∧ mode = .insert
  | .swapItems positions =>
    ∃ a b, positions = [a, b] ∧ a ≠ b ∧ (1 ≤ a ∧ a ≤ s.depth) ∧ (1 ≤ b ∧ b ≤ s.depth)
  | .rotateItems positions =>
    ∃ low high, positions = positionsBetween low high ∧ 1 ≤ low ∧ low < high ∧ high ≤ s.depth
  | .openItem position _ => 1 ≤ position ∧ mode = .insert
  | _ => True

namespace State.Addresses

variable {s : State} {positions : List Nat}

/-- Positions between two ends on the stack. -/
theorem between {low high : Nat} (h₁ : 1 ≤ low) (h₂ : low ≤ high) (h₃ : high ≤ max 1 s.depth)
    (hv : s.depth = 0 → s.mode = .visual) : s.Addresses (positionsBetween low high) where
  ne_nil := positionsBetween_ne_nil h₂
  nodup := nodup_positionsBetween low high
  one_le _ hp := Nat.le_trans h₁ (mem_positionsBetween.mp hp).1
  le_depth _ hp := Nat.le_trans (mem_positionsBetween.mp hp).2 h₃
  visual := hv

/-- On a stack with items these are positions of items, and on an empty one they are not. -/
theorem on_stack_iff (h : s.Addresses positions) :
    (∀ p ∈ positions, p ≤ s.depth) ↔ s.depth ≠ 0 := by
  obtain ⟨p, rest, rfl⟩ := List.exists_cons_of_ne_nil h.ne_nil
  constructor
  · intro hle
    have h₁ : 1 ≤ p := h.one_le p List.mem_cons_self
    have h₂ : p ≤ s.depth := hle p List.mem_cons_self
    omega
  · intro hd q hq
    have hq' : q ≤ max 1 s.depth := h.le_depth q hq
    omega

/-- On an empty stack nothing but position 1 is left. -/
theorem eq_singleton (h : s.Addresses positions) (hd : s.depth = 0) : positions = [1] := by
  have hone : ∀ p ∈ positions, p = 1 := by
    intro p hp
    have h₁ : 1 ≤ p := h.one_le p hp
    have h₂ : p ≤ max 1 s.depth := h.le_depth p hp
    omega
  obtain ⟨p, rest, rfl⟩ := List.exists_cons_of_ne_nil h.ne_nil
  obtain rfl := hone p List.mem_cons_self
  cases rest with
  | nil => rfl
  | cons q _ =>
    -- a second one would be 1 again
    have hq : q = 1 := hone q (by simp)
    exact absurd h.nodup (by simp [hq])

end State.Addresses

/-! ## 2. The four sources of positions -/

namespace State.Bounded

variable {s : State}

/-- A run from the cursor, unless it is empty, lies between two ends on the stack. -/
theorem runFromCursor_eq {count : Nat} (hne : s.runFromCursor count ≠ []) :
    ∃ high, s.runFromCursor count = positionsBetween s.position high ∧
      s.position ≤ high ∧ high ≤ s.depth := by
  unfold runFromCursor at hne ⊢
  split at hne
  · exact absurd rfl hne
  · rename_i hc
    rw [if_neg hc]
    obtain ⟨p, rest, hp⟩ := List.exists_cons_of_ne_nil hne
    obtain ⟨h₁, h₂⟩ := mem_positionsBetween.mp (hp ▸ List.mem_cons_self)
    exact ⟨_, rfl, Nat.le_trans h₁ h₂, Nat.min_le_right _ _⟩

/-- The selection, or else a run from the cursor. -/
theorem affectedPositions (h : s.Bounded) {count : Nat} (hne : s.affectedPositions count ≠ []) :
    s.Addresses (s.affectedPositions count) := by
  by_cases hm : s.mode = .visual
  · obtain ⟨anchor, hsel, ha₁, ha₂⟩ := h.exists_selection hm
    have hp₁ : 1 ≤ s.position := h.one_le
    have hp₂ : s.position ≤ max 1 s.depth := h.le_depth
    simp only [State.affectedPositions, hsel, Selection.low, Selection.high]
    exact .between (by omega) (by omega) (by omega) fun _ => hm
  · have hrun : s.affectedPositions count = s.runFromCursor (max count 1) := by
      simp only [State.affectedPositions, h.selection_eq_none hm]
    rw [hrun] at hne ⊢
    obtain ⟨high, heq, h₁, h₂⟩ := runFromCursor_eq hne
    have hp : 1 ≤ s.position := h.one_le
    rw [heq]
    exact .between hp h₁ (by omega) (by omega)

/-- A range that is brought into bounds. -/
theorem rangePositions {start stop : Nat} (hne : s.rangePositions start stop ≠ []) :
    s.Addresses (s.rangePositions start stop) := by
  unfold State.rangePositions at hne ⊢
  split at hne
  · exact absurd rfl hne
  · rename_i hd
    rw [if_neg hd]
    have ha₁ : 1 ≤ clamp start s.depth := one_le_clamp _ _
    have ha₂ : clamp start s.depth ≤ max 1 s.depth := clamp_le _ _
    have hb₁ : 1 ≤ clamp stop s.depth := one_le_clamp _ _
    have hb₂ : clamp stop s.depth ≤ max 1 s.depth := clamp_le _ _
    exact .between (by omega) (by omega) (by omega) fun h0 => absurd h0 hd

/-- The pair of a swap. -/
theorem swapPositions (h : s.Bounded) (hne : s.swapPositions ≠ []) :
    ∃ a b, s.swapPositions = [a, b] ∧ a ≠ b ∧ (1 ≤ a ∧ a ≤ s.depth) ∧ (1 ≤ b ∧ b ≤ s.depth) := by
  have hp : 1 ≤ s.position := h.one_le
  unfold State.swapPositions at hne ⊢
  split at hne
  · exact absurd rfl hne
  · rename_i hd
    rw [if_neg hd]
    split
    · exact ⟨s.depth, s.depth - 1, rfl, by omega, by omega, by omega⟩
    · exact ⟨s.position, s.position + 1, rfl, by omega, by omega, by omega⟩

/-- The run of a rotation has two items. -/
theorem rotatePositions (h : s.Bounded) {count : Nat} (hne : s.rotatePositions count ≠ []) :
    ∃ low high, s.rotatePositions count = positionsBetween low high ∧
      1 ≤ low ∧ low < high ∧ high ≤ s.depth := by
  unfold State.rotatePositions at hne ⊢
  split at hne
  · exact absurd rfl hne
  · rename_i hlen
    rw [if_neg hlen]
    obtain ⟨high, heq, -, h₂⟩ := runFromCursor_eq hne
    rw [heq, length_positionsBetween] at hlen
    exact ⟨s.position, high, heq, h.one_le, by omega, h₂⟩

end State.Bounded

/-! ## 3. What actions send -/

/-- An operation that sends a command touches something. -/
theorem Action.finish_command {outcome : Outcome} {command : List Nat → String → Command}
    {c : Command} (h : (finish outcome command).command = some c) :
    outcome.affected ≠ [] ∧ c = command outcome.affected (registerOf outcome) := by
  unfold finish at h
  split at h
  · exact absurd h (by simp [Reaction.move])
  · rename_i hne
    exact ⟨by simpa using hne, (Option.some.inj h).symm⟩

/-- **Every command of an action keeps its promise.** -/
theorem Bound.fits {i : Invocation} {mode : Mode} {run : Invocation → Reaction}
    (hb : Bound mode run) (h : i.state.Bounded) {c : Command} (hc : (run i).command = some c) :
    c.Fits i.state ((run i).after i.state).mode := by
  cases hb with
  | moveDown _ =>
    obtain rfl := Option.some.inj hc
    trivial
  | moveUp _ =>
    obtain rfl := Option.some.inj hc
    trivial
  | gotoPosition _ =>
    obtain rfl := Option.some.inj hc
    trivial
  | gotoBottom _ =>
    obtain rfl := Option.some.inj hc
    trivial
  | gotoTop _ =>
    unfold Action.gotoTop at hc
    split at hc
    · obtain rfl := Option.some.inj hc
      trivial
    · obtain rfl := Option.some.inj hc
      trivial
  | gotoNamed =>
    unfold Action.gotoNamed at hc
    split at hc
    · obtain rfl := Option.some.inj hc
      trivial
    · exact absurd hc (by simp [Reaction.nothing])
  | delete _ =>
    unfold Action.delete at hc
    split at hc
    · obtain ⟨hne, rfl⟩ := Action.finish_command hc
      exact State.Bounded.rangePositions hne
    · obtain ⟨hne, rfl⟩ := Action.finish_command hc
      exact h.affectedPositions hne
  | yank _ =>
    unfold Action.yank at hc
    split at hc
    · obtain ⟨hne, rfl⟩ := Action.finish_command hc
      exact State.Bounded.rangePositions hne
    · obtain ⟨hne, rfl⟩ := Action.finish_command hc
      exact h.affectedPositions hne
  | change _ =>
    obtain ⟨hne, rfl⟩ := Action.finish_command hc
    unfold Action.change
    rw [Action.finish_after]
    exact ⟨h.affectedPositions hne, rfl⟩
  | deleteToPosition =>
    unfold Action.deleteToPosition at hc
    split at hc
    · obtain ⟨hne, rfl⟩ := Action.finish_command hc
      exact State.Bounded.rangePositions hne
    · exact absurd hc (by simp [Reaction.nothing])
  | yankToPosition =>
    unfold Action.yankToPosition at hc
    split at hc
    · obtain ⟨hne, rfl⟩ := Action.finish_command hc
      exact State.Bounded.rangePositions hne
    · exact absurd hc (by simp [Reaction.nothing])
  | paste after =>
    obtain rfl := Option.some.inj hc
    trivial
  | swap =>
    obtain ⟨hne, rfl⟩ := Action.finish_command hc
    exact h.swapPositions hne
  | rotate =>
    obtain ⟨hne, rfl⟩ := Action.finish_command hc
    exact h.rotatePositions hne
  | openItem above =>
    obtain rfl := Option.some.inj hc
    exact ⟨h.one_le, rfl⟩
  | insertMode => exact absurd hc (by simp [Action.insertMode, Reaction.move])
  | visualMode => exact absurd hc (by simp [Action.visualMode, Reaction.move])
  | commandMode => exact absurd hc (by simp [Action.commandMode, Reaction.move])
  | search direction => exact absurd hc (by simp [Action.search, Reaction.move])
  | nextMatch reverse =>
    obtain ⟨-, -, rfl⟩ := Option.map_eq_some_iff.mp hc
    trivial
  | dotRepeat =>
    obtain ⟨-, -, rfl⟩ := Option.map_eq_some_iff.mp hc
    trivial
  | escape _ => exact absurd hc (by simp [Action.escape, Reaction.move])

/-- News of a state names no items. -/
theorem Command.IsNews.positions {c : Command} (h : c.IsNews) : c.positions? = none := by
  cases c with
  | selectionChange _ | modeChange _ | bufferUpdate _ => rfl
  | _ => exact absurd h id

theorem Command.Fits.addresses {s : State} {mode : Mode} {c : Command} {positions : List Nat}
    (h : c.Fits s mode) (hps : c.positions? = some positions) : s.Addresses positions := by
  cases c with
  | deleteItems _ _ | yankItems _ _ | deleteToPosition _ _ _ | yankToPosition _ _ _ =>
    obtain rfl := Option.some.inj hps
    exact h
  | changeItems _ _ =>
    obtain rfl := Option.some.inj hps
    exact h.1
  | swapItems _ =>
    obtain rfl := Option.some.inj hps
    obtain ⟨a, b, rfl, hne, ⟨ha₁, ha₂⟩, ⟨hb₁, hb₂⟩⟩ := h
    refine ⟨by simp, by simpa using hne, ?_, ?_, by omega⟩
    · simp only [List.forall_mem_cons]
      exact ⟨ha₁, hb₁, by simp⟩
    · simp only [List.forall_mem_cons]
      exact ⟨by omega, by omega, by simp⟩
  | rotateItems _ =>
    obtain rfl := Option.some.inj hps
    obtain ⟨low, high, rfl, h₁, h₂, h₃⟩ := h
    exact .between h₁ (by omega) (by omega) (by omega)
  | _ => exact absurd hps (by simp [positions?])

/-- **Every command of a step addresses the stack** as it was before. -/
theorem State.Bounded.react_addresses {s : State} (h : s.Bounded) {settings : Settings}
    {input : Input} {c : Command} {positions : List Nat}
    (hc : c ∈ (s.step .default settings input).2) (hps : c.positions? = some positions) :
    s.Addresses positions := by
  rcases List.mem_append.mp hc with hc | hc
  · have hsent : (s.react .default settings input).2 = some c := Option.mem_toList.mp hc
    rcases s.react_default settings input with ⟨r, hb, heq⟩ | ⟨_, _, _, heq⟩ | ⟨-, heq⟩
    · rw [heq, execute_snd] at hsent
      have hfits : c.Fits s ((r.reaction s settings).after s).mode :=
        @Bound.fits (r.invocation s settings) _ _ hb h c hsent
      exact hfits.addresses hps
    · rw [heq] at hsent
      exact absurd hsent (by simp)
    · rw [heq] at hsent
      obtain ⟨_, _, _, _, -, -, hsearch⟩ := s.searchInput_eq input settings.segmentation
      obtain ⟨_, rfl⟩ := hsearch c hsent
      exact absurd hps (by simp [Command.positions?])
  · exact absurd hps (by simp [(isNews_of_mem hc).positions])

/-! ## 4. Every reachable engine -/

theorem Engine.mem_handleEvent_commands {η : Type} {e : Engine η} {input : Input}
    {context : Context} {c : Command} (h : c ∈ (e.handleEvent input context).2.commands) :
    c ∈ (e.state.step e.keymaps e.settings input).2 := by
  rw [handleEvent_commands] at h
  split at h
  · exact h
  · exact absurd h (by simp)

/-- **What a command names.**  Whatever a host has done to an engine with the default keymaps,
and whatever is typed: a command that names items names some, none of them twice, and none
below position 1.  On a stack with items these are positions of the stack as it was before.
On an empty stack they are not, and then it was in visual mode and names position 1. -/
theorem Engine.Reachable.commands_address {η : Type} {setup : Setup} {e : Engine η}
    (hk : setup.keymaps = .default) (h : e.Reachable setup) (input : Input) (context : Context)
    {c : Command} (hc : c ∈ (e.handleEvent input context).2.commands) {positions : List Nat}
    (hps : c.positions? = some positions) :
    (positions ≠ [] ∧ positions.Nodup ∧ ∀ p ∈ positions, 1 ≤ p) ∧
      ((∀ p ∈ positions, p ≤ e.state.depth) ↔ e.state.depth ≠ 0) ∧
      (e.state.depth = 0 → e.state.mode = .visual ∧ positions = [1]) := by
  have hstep : c ∈ (e.state.step .default e.settings input).2 := by
    rw [← hk, ← h.keymaps]
    exact mem_handleEvent_commands hc
  have ha : e.state.Addresses positions := (h.bounded hk).react_addresses hstep hps
  exact ⟨⟨ha.ne_nil, ha.nodup, ha.one_le⟩, ha.on_stack_iff,
    fun hd => ⟨ha.visual hd, ha.eq_singleton hd⟩⟩

/-- Three of five items are deleted. -/
theorem Engine.Reachable.deletion_addresses :
    let e : Engine Unit := (Setup.start { depth := 5 }).run (Engine.typing ['j', '3', 'd'])
    Command.deleteItems [2, 3, 4] "\"" ∈
        (e.handleEvent (.key { code := .char 'd' }) .stack).2.commands ∧
      ([2, 3, 4] ≠ [] ∧ [2, 3, 4].Nodup ∧ ∀ p ∈ [2, 3, 4], 1 ≤ p) ∧
      ((∀ p ∈ [2, 3, 4], p ≤ e.state.depth) ↔ e.state.depth ≠ 0) ∧
      (e.state.depth = 0 → e.state.mode = .visual ∧ [2, 3, 4] = [1]) := by
  intro e
  have hc : Command.deleteItems [2, 3, 4] "\"" ∈
      (e.handleEvent (.key { code := .char 'd' }) .stack).2.commands := by
    decide +kernel
  exact ⟨hc, commands_address rfl (Engine.Reachable.start.run _) _ _ hc rfl⟩

/-- On an empty stack visual mode selects position 1, and deleting the selection names it. -/
theorem Engine.Reachable.selection_on_empty_stack :
    let e : Engine Unit := (Setup.start {}).run (Engine.typing ['v'])
    e.Reachable {} ∧ e.state.depth = 0 ∧
      Command.deleteItems [1] "\"" ∈
        (e.handleEvent (.key { code := .char 'd' }) .stack).2.commands ∧
      ¬ ∀ p ∈ [1], 1 ≤ p ∧ p ≤ e.state.depth := by
  intro e
  refine ⟨Engine.Reachable.start.run _, rfl, ?_, ?_⟩
  · decide +kernel
  · decide

end ModalStack
