/-
# What actions look at

An action is handed everything: the state, the count, the register and the operand.  It looks at
little of it, and what it does not look at cannot make a difference.

* No action looks at the half-typed command, at the count that was set before it, or at the contents
  of the registers (`Bound.overlooks`).  The count that it is meant to see is handed to it apart.
* Most actions look at no operand at all, or only whether it is a range
  (`Action.MindsRanges`).  Going to the top looks at a position, but that a position with a count
  says no more than the count (`Action.MindsCounts`).

That a function does not look at a part of the state is an equation: to change the part and then
apply the function is to apply it and then change the part (`Unseen.OverlookedBy`).
-/
import ModalStack.Proofs.Leaves

namespace ModalStack

/-! ## 1. Parts of the state that no action looks at -/

/-- A change of the half-typed command, of the count that was set before it, and of the contents of
the registers.  What is not there stays so, since some actions drop what is typed. -/
structure Unseen where
  buffer : String → String
  keys : List String → List String
  count : Option Nat → Option Nat
  registers : Table String (List String) → Table String (List String)
  buffer_empty : buffer "" = ""
  keys_nil : keys [] = []
  count_none : count none = none

/-- What an action makes of a state, everything else that it sees being given. -/
def Invocation.outcome (i : Invocation) (run : Invocation → Reaction) (s : State) :
    State × Option Command :=
  ((run { i with state := s }).after s, (run { i with state := s }).command)

namespace Unseen

variable {s : State}

/-- The state with these parts changed. -/
def apply (u : Unseen) (s : State) : State :=
  { s with
    buffer := u.buffer s.buffer
    keys := u.keys s.keys
    pendingCount := u.count s.pendingCount
    registers := u.registers s.registers }

/-- To change the parts and then apply the function is to apply it and then change them. -/
def OverlookedBy {α : Type} (u : Unseen) (f : State → State × α) : Prop :=
  ∀ s, f (u.apply s) = (u.apply (f s).1, (f s).2)

/-! Motions do not look. -/

theorem moveBy_apply (u : Unseen) (offset : Int) :
    (u.apply s).moveBy offset = u.apply (s.moveBy offset) := by
  unfold State.moveBy apply
  generalize clampSigned (addSaturating (signedView s.position) offset) s.depth = target
  rfl

theorem jumpTo_apply (u : Unseen) (position : Int) :
    (u.apply s).jumpTo position = u.apply (s.jumpTo position) := by
  have hmode : (u.apply s).mode = s.mode := rfl
  unfold State.jumpTo
  rw [hmode]
  split
  · exact u.moveBy_apply _
  · rfl

end Unseen

namespace Action

variable {u : Unseen}

/-- An operation does not look if its outcome does not. -/
theorem finish_overlooks {outcome : State → Outcome} (command : State → List Nat → String → Command)
    (houtcome : ∀ s, outcome (u.apply s) = { outcome s with state := u.apply (outcome s).state })
    (hcommand : ∀ s, command (u.apply s) = command s) :
    u.OverlookedBy fun s =>
      ((finish (outcome s) (command s)).after s, (finish (outcome s) (command s)).command) := by
  intro s
  simp only [finish_after, houtcome, hcommand]
  refine Prod.ext rfl ?_
  unfold finish
  split
  · rfl
  · rfl

/-- A motion does not look if its target does not. -/
theorem emit_overlooks (next : State → State) (command : State → State → Command)
    (hnext : ∀ s, next (u.apply s) = u.apply (next s))
    (hcommand : ∀ s t, command (u.apply s) (u.apply t) = command s t) :
    u.OverlookedBy fun s =>
      ((Reaction.emit (next s) (command s (next s))).after s,
        (Reaction.emit (next s) (command s (next s))).command) := by
  intro s
  simp only [hnext, hcommand]
  rfl

theorem moveRelative_overlooks (u : Unseen) (i : Invocation) (offset : Int) :
    u.OverlookedBy (i.outcome fun i => moveRelative i offset) :=
  emit_overlooks (·.moveBy offset)
    (fun s t => .moveRelative (signedView (signedView t.position - signedView s.position)))
    (fun _ => u.moveBy_apply offset) fun _ _ => rfl

theorem gotoPosition_overlooks (u : Unseen) (i : Invocation) :
    u.OverlookedBy (i.outcome gotoPosition) :=
  emit_overlooks (·.jumpTo _) (fun _ t => .moveToPosition t.position)
    (fun _ => u.jumpTo_apply _) fun _ _ => rfl

end Action

/-- **No action looks** at what is half typed, at the count set before it, or at what the registers
hold. -/
theorem Bound.overlooks {mode : Mode} {run : Invocation → Reaction} (hb : Bound mode run)
    (u : Unseen) (i : Invocation) : u.OverlookedBy (i.outcome run) := by
  cases hb with
  | moveDown _ =>
    unfold Invocation.outcome Action.moveDown
    exact Action.moveRelative_overlooks u i i.times
  | moveUp _ =>
    unfold Invocation.outcome Action.moveUp
    exact Action.moveRelative_overlooks u i (-i.times)
  | gotoPosition _ => exact Action.gotoPosition_overlooks u i
  | gotoBottom _ =>
    exact Action.emit_overlooks (·.jumpTo 1) (fun _ _ => .moveToBottom)
      (fun _ => u.jumpTo_apply 1) fun _ _ => rfl
  | gotoTop _ =>
    unfold Invocation.outcome Action.gotoTop
    dsimp only
    split
    · exact Action.gotoPosition_overlooks u i
    · exact Action.emit_overlooks (fun s => s.jumpTo (signed s.depth))
        (fun _ _ => .moveToTop) (fun _ => u.jumpTo_apply _) fun _ _ => rfl
  | gotoNamed =>
    unfold Invocation.outcome Action.gotoNamed
    dsimp only
    split
    · exact fun _ => rfl
    · exact fun _ => rfl
  | delete _ =>
    refine Action.finish_overlooks (fun _ => .deleteItems) ?_ fun _ => rfl
    intro s
    dsimp only
    split
    · rfl
    · rfl
  | yank _ =>
    refine Action.finish_overlooks (fun _ => .yankItems) ?_ fun _ => rfl
    intro s
    dsimp only
    split
    · rfl
    · rfl
  | deleteToPosition =>
    unfold Invocation.outcome Action.deleteToPosition
    dsimp only
    split
    · rename_i target _
      exact Action.finish_overlooks
        (fun s positions => .deleteToPosition positions (clamp target s.depth))
        (fun _ => rfl) fun _ => rfl
    · exact fun _ => rfl
  | yankToPosition =>
    unfold Invocation.outcome Action.yankToPosition
    dsimp only
    split
    · rename_i target _
      exact Action.finish_overlooks
        (fun s positions => .yankToPosition positions (clamp target s.depth))
        (fun _ => rfl) fun _ => rfl
    · exact fun _ => rfl
  | change _ => exact Action.finish_overlooks (fun _ => .changeItems) (fun _ => rfl) fun _ => rfl
  | swap =>
    exact Action.finish_overlooks (fun _ positions _ => .swapItems positions)
      (fun _ => rfl) fun _ => rfl
  | rotate =>
    exact Action.finish_overlooks (fun _ positions _ => .rotateItems positions)
      (fun _ => rfl) fun _ => rfl
  | paste _ | openItem _ | insertMode | visualMode | commandMode | nextMatch _ | dotRepeat =>
    exact fun _ => rfl
  | search direction =>
    intro s
    simp [Invocation.outcome, Action.search, Reaction.move, Reaction.after, State.startSearch,
      State.clearBuffer, Unseen.apply, u.buffer_empty, u.keys_nil]
  | escape _ =>
    intro s
    simp [Invocation.outcome, Action.escape, Reaction.move, Reaction.after, State.clearBuffer,
      Unseen.apply, u.buffer_empty, u.keys_nil, u.count_none]

/-! ## 2. Operands that say no more than a count -/

namespace Invocation

variable {i : Invocation}

/-- The same without the operand. -/
def bare (i : Invocation) : Invocation := { i with operand := none }

/-- The operand, if there is one, does not give two ends. -/
def Rangeless (i : Invocation) : Prop :=
  ∀ operand, i.operand = some operand → operand.isRange = false

/-- The operand says no more than the count: it does not give two ends, and if it gives a position,
so does the count. -/
structure CountSays (i : Invocation) : Prop where
  rangeless : i.Rangeless
  position : ∀ n, i.operand = some (.position n) → i.count = some n ∧ n ≤ maxCount

end Invocation

namespace Action

/-- Of an operand the action looks only whether it gives two ends. -/
def MindsRanges (run : Invocation → Reaction) : Prop :=
  ∀ i : Invocation, i.Rangeless → run i = run i.bare

/-- An operand that says no more than the count makes no difference to the action. -/
def MindsCounts (run : Invocation → Reaction) : Prop :=
  ∀ i : Invocation, i.CountSays → run i = run i.bare

theorem MindsRanges.mindsCounts {run : Invocation → Reaction} (h : MindsRanges run) :
    MindsCounts run := fun i hi => h i hi.rangeless

theorem delete_mindsRanges : MindsRanges delete := by
  intro i hi
  unfold delete Invocation.bare
  dsimp only
  split
  · rename_i heq
    exact absurd (hi _ heq) (by simp [Operand.isRange])
  · rfl

theorem yank_mindsRanges : MindsRanges yank := by
  intro i hi
  unfold yank Invocation.bare
  dsimp only
  split
  · rename_i heq
    exact absurd (hi _ heq) (by simp [Operand.isRange])
  · rfl

theorem gotoPosition_mindsCounts : MindsCounts gotoPosition := by
  intro i hi
  unfold gotoPosition Invocation.bare
  dsimp only
  split
  · rename_i n heq
    obtain ⟨hcount, hle⟩ := hi.position n heq
    have htimes : signed n = i.times := by
      rw [Invocation.times, hcount, Option.getD_some, signed, maxSigned]
      rw [maxCount] at hle
      omega
    rw [htimes]
    rfl
  · rfl

theorem gotoTop_mindsCounts : MindsCounts gotoTop := by
  intro i hi
  unfold gotoTop
  dsimp only [Invocation.bare]
  split
  · exact gotoPosition_mindsCounts i hi
  · rfl

end Action

end ModalStack
