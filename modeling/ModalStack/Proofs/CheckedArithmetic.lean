/-
# The arithmetic is exact

A stack may be deeper than a motion can count with a sign, and a count or a position may be typed
that is larger still.  The cursor nevertheless never leaves the signed range, nor does an end of
the selection (`State.Narrow`): a motion saturates there, and nothing else moves the cursor up.

From this one bound everything follows that an action adds, subtracts or converts.  Carried out
with checks, every action of the library succeeds and does what the plain one does
(`Engine.Reachable.arithmetic_exact`).
-/
import ModalStack.Action.Checked
import ModalStack.Proofs.Reachable
import ModalStack.Proofs.Turns

namespace ModalStack

/-! ## 1. The bound -/

/-- The cursor and both ends of the selection are in the signed range. -/
structure State.Narrow (s : State) : Prop where
  position : s.position ≤ maxSigned
  selection : ∀ sel ∈ s.selection, sel.anchor ≤ maxSigned ∧ sel.head ≤ maxSigned

theorem clamp_le_maxSigned {position : Nat} (h : position ≤ maxSigned) (depth : Nat) :
    clamp position depth ≤ maxSigned := by
  simp only [clamp, maxSigned] at *
  omega

namespace State.Narrow

variable {s t : State}

/-- The bound looks at two fields only. -/
theorem congr (h : s.Narrow) (hp : t.position = s.position) (hsel : t.selection = s.selection) :
    t.Narrow where
  position := by rw [hp]; exact h.position
  selection := by rw [hsel]; exact h.selection

theorem of_unselected (h : s.position ≤ maxSigned) (hsel : s.selection = none) : s.Narrow where
  position := h
  selection := by rw [hsel]; exact fun _ hin => absurd hin (by simp)

/-- A motion ends in the range wherever it begins, and an anchor is where the cursor was. -/
theorem moveBy (h : s.Narrow) (offset : Int) : (s.moveBy offset).Narrow := by
  have hp : (s.moveBy offset).position ≤ maxSigned := by
    rw [moveBy_position]
    exact clampSigned_le_maxSigned _ _
  refine ⟨hp, ?_⟩
  intro sel hin
  rw [moveBy_selection] at hin
  unfold selectionTowards at hin
  split at hin
  · obtain rfl := Option.some.inj hin
    refine ⟨?_, hp⟩
    cases hsel : s.selection with
    | none => exact h.position
    | some old => exact (h.selection old hsel).1
  · exact absurd hin (by simp)

theorem jumpTo (h : s.Narrow) (position : Int) : (s.jumpTo position).Narrow := by
  unfold State.jumpTo
  split
  · exact h.moveBy _
  · exact of_unselected (clampSigned_le_maxSigned _ _) rfl

theorem afterRemoval (h : s.Narrow) (removed : Nat) (register : String) :
    (s.afterRemoval removed register).Narrow := by
  have hp : s.position ≤ maxSigned := h.position
  refine of_unselected ?_ rfl
  simp only [State.afterRemoval, maxSigned] at *
  omega

theorem afterCopy (h : s.Narrow) (register : String) : (s.afterCopy register).Narrow :=
  of_unselected h.position rfl

theorem enterVisual (h : s.Narrow) : s.enterVisual.Narrow where
  position := h.position
  selection := by
    intro sel hin
    obtain rfl := Option.some.inj hin
    exact ⟨h.position, h.position⟩

theorem withDepth (h : s.Narrow) (depth : Nat) : (s.withDepth depth).Narrow where
  position := clamp_le_maxSigned h.position depth
  selection := by
    intro sel hin
    obtain ⟨old, hold, rfl⟩ := Option.map_eq_some_iff.mp hin
    obtain ⟨hanchor, hhead⟩ := h.selection old hold
    exact ⟨clamp_le_maxSigned hanchor depth, clamp_le_maxSigned hhead depth⟩

/-- **Every action keeps the bound**, in whatever mode it runs. -/
theorem action {i : Invocation} {mode : Mode} {run : Invocation → Reaction}
    (h : i.state.Narrow) (hb : Bound mode run) : ((run i).after i.state).Narrow := by
  cases hb with
  | moveDown _ | moveUp _ => exact h.moveBy _
  | gotoPosition _ | gotoBottom _ => exact h.jumpTo _
  | gotoTop _ =>
    unfold Action.gotoTop
    split
    · exact h.jumpTo _
    · exact h.jumpTo _
  | gotoNamed =>
    unfold Action.gotoNamed
    split
    · exact h
    · exact h
  | delete _ =>
    unfold Action.delete
    rw [Action.finish_after]
    split
    · exact (h.afterRemoval _ (State.targetRegister i.register)).congr rfl rfl
    · exact (h.afterRemoval _ (State.targetRegister i.register)).congr rfl rfl
  | yank _ =>
    unfold Action.yank
    rw [Action.finish_after]
    split
    · exact (h.afterCopy (State.targetRegister i.register)).congr rfl rfl
    · exact (h.afterCopy (State.targetRegister i.register)).congr rfl rfl
  | change _ =>
    unfold Action.change
    rw [Action.finish_after]
    exact (h.afterCopy (State.targetRegister i.register)).congr rfl rfl
  | deleteToPosition =>
    unfold Action.deleteToPosition
    split
    · rw [Action.finish_after]
      exact h.afterRemoval _ _
    · exact h
  | yankToPosition =>
    unfold Action.yankToPosition
    split
    · rw [Action.finish_after]
      exact h.afterCopy _
    · exact h
  | paste _ => exact h.afterCopy _
  | swap =>
    unfold Action.swap
    rw [Action.finish_after]
    exact h
  | rotate =>
    unfold Action.rotate
    rw [Action.finish_after]
    exact h
  | visualMode => exact h.enterVisual
  | insertMode => exact h.congr rfl rfl
  | nextMatch _ | dotRepeat => exact h
  | openItem _ | commandMode | search _ | escape _ => exact of_unselected h.position rfl

/-- **Every input keeps the bound.** -/
theorem react {keymaps : Keymaps} (hk : keymaps.OfLibrary) (h : s.Narrow) (settings : Settings)
    (input : Input) : (s.react keymaps settings input).1.Narrow := by
  rcases react_cases (fun _ hm => hk.bound hm) settings input with
    ⟨r, hb, heq⟩ | ⟨_, _, _, heq⟩ | ⟨-, heq⟩
  · rw [heq]
    have hafter : ((r.reaction s settings).after s).Narrow :=
      @action (r.invocation s settings) _ _ h hb
    exact hafter.congr execute_position execute_selection
  · rw [heq]
    exact h.congr rfl rfl
  · rw [heq]
    obtain ⟨_, _, _, _, -, hsearch, -⟩ := s.searchInput_eq input settings.segmentation
    rw [hsearch]
    exact h.congr rfl rfl

theorem invariant {keymaps : Keymaps} (hk : keymaps.OfLibrary) (settings : Settings) :
    Invariant keymaps settings State.Narrow where
  react input h := h.react hk settings input
  afterLine h := of_unselected h.position rfl
  withDepth depth h := h.withDepth depth
  withCount _ h := h.congr rfl rfl
  withRegisters _ h := h.congr rfl rfl

theorem start (setup : Setup) : setup.state.Narrow := by
  have hempty : ({} : State).Narrow := of_unselected (by decide) rfl
  have hdepth : (({} : State).withDepth setup.depth).Narrow := hempty.withDepth setup.depth
  unfold Setup.state
  split
  · exact hdepth.enterVisual.congr rfl rfl
  · exact hdepth.congr rfl rfl

end State.Narrow

/-! ## 2. Checks that succeed -/

section

variable {a b : Nat}

theorem toSigned?_eq (h : a ≤ maxSigned) : toSigned? a = .ok a := if_pos h

theorem add?_eq (h : a + b < wordSize) : add? a b = .ok (a + b) := if_pos h

theorem sub?_eq (h : b ≤ a) : sub? a b = .ok (a - b) := if_pos h

/-- Two numbers of the range that are not negative differ by a number of the range. -/
theorem signedSub?_eq (ha : a ≤ maxSigned) (hb : b ≤ maxSigned) :
    signedSub? a b = .ok (signedView (signedView a - signedView b)) := by
  have hlow : minSigned ≤ (a : Int) - b := by
    simp only [minSigned, maxSigned] at *
    omega
  have hhigh : (a : Int) - b ≤ maxSigned := by
    simp only [maxSigned] at *
    omega
  rw [signedView_natCast ha, signedView_natCast hb, signedView_of_mem hlow hhigh]
  unfold signedSub?
  rw [if_neg (by omega), if_neg (by omega)]

theorem Selection.span?_eq {sel : Selection} (ha : sel.anchor ≤ maxSigned)
    (hh : sel.head ≤ maxSigned) : sel.span? = .ok sel.span := by
  have hfits : sel.high - sel.low + 1 < wordSize := by
    simp only [low, high, maxSigned, wordSize] at *
    omega
  unfold span? span
  rw [sub?_eq sel.low_le_high, wrap_of_lt hfits]
  exact add?_eq hfits

end

namespace State.Narrow

variable {s : State}

theorem moveBy?_eq (h : s.Narrow) (offset : Int) : s.moveBy? offset = .ok (s.moveBy offset) := by
  unfold State.moveBy? State.moveBy
  rw [toSigned?_eq h.position, signedView_natCast h.position]
  rfl

theorem jumpTo?_eq (h : s.Narrow) (position : Int) :
    s.jumpTo? position = .ok (s.jumpTo position) := by
  cases hm : s.mode with
  | visual =>
    simp only [State.jumpTo?, State.jumpTo, hm, extendTo?, extendTo]
    rw [toSigned?_eq h.position, signedView_natCast h.position]
    exact h.moveBy?_eq _
  | _ =>
    simp only [State.jumpTo?, State.jumpTo, hm]
    rfl

theorem intendedSize?_eq (h : s.Narrow) (count : Nat) :
    s.intendedSize? count = .ok (s.intendedSize count) := by
  cases hsel : s.selection with
  | none =>
    simp only [intendedSize?, intendedSize, hsel]
    rfl
  | some sel =>
    obtain ⟨hanchor, hhead⟩ := h.selection sel hsel
    simp only [intendedSize?, intendedSize, hsel]
    exact Selection.span?_eq hanchor hhead

theorem deleteItems?_eq (h : s.Narrow) (count : Nat) (register : Option String) :
    s.deleteItems? count register = .ok (s.deleteItems count register) := by
  unfold deleteItems?
  rw [h.intendedSize?_eq]
  rfl

/-- The position above the cursor is a number of 64 bits. -/
theorem above_fits (h : s.Narrow) : s.position + 1 < wordSize := by
  have hp : s.position ≤ maxSigned := h.position
  simp only [maxSigned, wordSize] at *
  omega

theorem pasteItems?_eq (h : s.Narrow) (register : Option String) (after : Bool) :
    s.pasteItems? register after = .ok (s.pasteItems register after) := by
  have habove : s.position + 1 < wordSize := h.above_fits
  cases after with
  | true =>
    have hhere : add? s.position 0 = .ok s.position := add?_eq (Nat.lt_of_succ_lt habove)
    simp only [pasteItems?, pasteItems, if_true, hhere]
    rfl
  | false =>
    simp only [pasteItems?, pasteItems, Bool.false_eq_true, if_false, add?_eq habove,
      wrap_of_lt habove]
    rfl

theorem swapPositions?_eq (h : s.Narrow) : s.swapPositions? = .ok s.swapPositions := by
  unfold swapPositions? swapPositions
  split
  · rfl
  · split
    · rw [sub?_eq (by omega)]
      rfl
    · rw [add?_eq h.above_fits]
      rfl

theorem swapItems?_eq (h : s.Narrow) : s.swapItems? = .ok s.swapItems := by
  unfold swapItems?
  rw [h.swapPositions?_eq]
  rfl

end State.Narrow

/-! ## 3. The library -/

namespace Action

variable {i : Invocation}

/-- How far the cursor went is a number of the signed range. -/
theorem moveRelative?_eq (h : i.state.Narrow) (offset : Int) :
    moveRelative? i offset = .ok (moveRelative i offset) := by
  have hmove : i.state.moveBy? offset = .ok (i.state.moveBy offset) := h.moveBy?_eq offset
  have hnext : (i.state.moveBy offset).position ≤ maxSigned := (h.moveBy offset).position
  unfold moveRelative? moveRelative
  -- from here on it does not matter how the target was computed
  generalize i.state.moveBy offset = next at hmove hnext
  rw [hmove, ok_bind, toSigned?_eq hnext, ok_bind, toSigned?_eq h.position, ok_bind,
    signedSub?_eq hnext h.position]
  rfl

theorem gotoPosition?_eq (h : i.state.Narrow) : gotoPosition? i = .ok (gotoPosition i) := by
  simp only [gotoPosition?, h.jumpTo?_eq]
  rfl

theorem gotoBottom?_eq (h : i.state.Narrow) : gotoBottom? i = .ok (gotoBottom i) := by
  unfold gotoBottom?
  rw [h.jumpTo?_eq]
  rfl

theorem gotoTop?_eq (h : i.state.Narrow) : gotoTop? i = .ok (gotoTop i) := by
  cases hcount : i.count with
  | none =>
    simp only [gotoTop?, gotoTop, hcount]
    rw [h.jumpTo?_eq]
    rfl
  | some _ =>
    simp only [gotoTop?, gotoTop, hcount]
    exact gotoPosition?_eq h

theorem delete?_eq (h : i.state.Narrow) : delete? i = .ok (delete i) := by
  unfold delete?
  rw [h.deleteItems?_eq]
  split
  · rename_i start stop hop
    simp only [delete, hop]
    rfl
  · rename_i hop
    have hdelete : delete i
        = finish (landIn .normal (i.state.deleteItems i.times i.register)) .deleteItems := by
      unfold delete
      split
      · exact absurd ‹_› (hop _ _)
      · rfl
    rw [hdelete]
    rfl

theorem paste?_eq (h : i.state.Narrow) (after : Bool) : paste? after i = .ok (paste after i) := by
  unfold paste?
  rw [h.pasteItems?_eq]
  rfl

theorem swap?_eq (h : i.state.Narrow) : swap? i = .ok (swap i) := by
  unfold swap?
  rw [h.swapItems?_eq]
  rfl

/-- In this state the checks succeed and change nothing, whatever else the action sees. -/
def Checked.ExactAt (s : State) (c : Checked) : Prop :=
  ∀ i : Invocation, i.state = s → c.run i = .ok (c.plain.run i)

theorem unchecked_exactAt (s : State) (a : Action) : (unchecked a).ExactAt s := fun _ _ => rfl

/-- **The library, action by action.** -/
theorem checkedLibrary_exactAt {s : State} (h : s.Narrow) :
    ∀ c ∈ checkedLibrary, c.ExactAt s := by
  have hexact {a : Action} {run? : Invocation → Except WordFault Reaction}
      (heq : ∀ i : Invocation, i.state.Narrow → run? i = .ok (a.run i)) :
      Checked.ExactAt s ⟨a, run?⟩ :=
    fun i hi => heq i (hi ▸ h)
  have hnone {a : Action} : (unchecked a).ExactAt s := unchecked_exactAt s a
  simp only [checkedLibrary, List.forall_mem_cons]
  exact ⟨hexact fun i hi => moveRelative?_eq hi i.times,
    hexact fun i hi => moveRelative?_eq hi (-i.times), hexact fun _ => gotoPosition?_eq,
    hexact fun _ => gotoBottom?_eq, hexact fun _ => gotoTop?_eq, hnone,
    hexact fun _ => delete?_eq, hnone, hnone, hnone,
    hexact fun _ hi => paste?_eq hi true, hexact fun _ hi => paste?_eq hi false,
    hexact fun _ => swap?_eq, hnone, hnone, hnone, hnone, hnone, hnone, hnone, hnone, hnone,
    hnone, hnone, hnone, hnone, by simp⟩

end Action

/-! ## 4. Every reachable engine -/

namespace Engine.Reachable

variable {η : Type} {setup : Setup} {e : Engine η}

theorem narrow (hk : setup.keymaps.OfLibrary) (h : e.Reachable setup) : e.state.Narrow :=
  h.of_invariant (State.Narrow.invariant hk setup.settings) (State.Narrow.start setup)

/-- **The arithmetic is exact.**  The keymaps lead to actions of the library, as the default ones
do, and a host has done anything to the engine, with stacks of any depth.  Then the cursor is in
the signed range, so that it is the same number with a sign, and every action that is run now,
with whatever count, register and operand, succeeds with all its sums, differences and conversions
checked, and does what it does without checks. -/
theorem arithmetic_exact (hk : setup.keymaps.OfLibrary) (h : e.Reachable setup) :
    (e.state.position ≤ maxSigned ∧ signedView e.state.position = e.state.position) ∧
      Action.checkedLibrary.map Action.Checked.plain = Action.library ∧
      ∀ c ∈ Action.checkedLibrary, c.ExactAt e.state := by
  have hn : e.state.Narrow := h.narrow hk
  exact ⟨⟨hn.position, signedView_natCast hn.position⟩, Action.map_plain_checkedLibrary,
    Action.checkedLibrary_exactAt hn⟩

/-- On the deepest stack of all, everything is selected that can be reached. -/
theorem arithmetic_exact_on_deepest :
    let e : Engine Unit :=
      (Setup.start { depth := 18446744073709551615 }).run (typing ['v', 'G'])
    (Keymaps.default.OfLibrary ∧ e.Reachable { depth := 18446744073709551615 } ∧
        e.state.depth = maxPosition ∧ e.state.selection = some ⟨1, maxSigned⟩) ∧
      (e.state.position ≤ maxSigned ∧ signedView e.state.position = e.state.position) ∧
      Action.checkedLibrary.map Action.Checked.plain = Action.library ∧
      ∀ c ∈ Action.checkedLibrary, c.ExactAt e.state := by
  intro e
  have hreachable : e.Reachable { depth := 18446744073709551615 } :=
    Reachable.start.run (typing ['v', 'G'])
  exact ⟨⟨Keymaps.default_ofLibrary, hreachable, by decide +kernel⟩,
    arithmetic_exact Keymaps.default_ofLibrary hreachable⟩

end Engine.Reachable

end ModalStack
