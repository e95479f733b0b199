/-
# The library of actions

The actions that the default keymaps bind, one for everything the engine can do.  Positions
count from the bottom of the stack; moving down, as `j` does, counts them up, and the top is
the last.

An action that touched nothing sends no command: a deletion of no items, a swap on a stack of
one, a rotation of fewer than two.
-/
import ModalStack.Action
import ModalStack.Change
import ModalStack.State.Motion
import ModalStack.State.Operation
import ModalStack.State.Search

namespace ModalStack.Action

/-! ## 1. Motions -/

/-- Moves the cursor, and reports how far it went. -/
def moveRelative (i : Invocation) (offset : Int) : Reaction :=
  let next := i.state.moveBy offset
  .emit next
    (.moveRelative (signedView (signedView next.position - signedView i.state.position)))

/-- Counts the position up. -/
def moveDown (i : Invocation) : Reaction := moveRelative i i.times

/-- Counts the position down. -/
def moveUp (i : Invocation) : Reaction := moveRelative i (-i.times)

/-- Goes to the position of the phrase, or to the one that the count gives. -/
def gotoPosition (i : Invocation) : Reaction :=
  let target : Int := match i.operand with
    | some (.position n) => signed n
    | _ => i.times
  let next := i.state.jumpTo target
  .emit next (.moveToPosition next.position)

/-- Goes to position 1. -/
def gotoBottom (i : Invocation) : Reaction := .emit (i.state.jumpTo 1) .moveToBottom

/-- Goes to the top, or to a position if there is a count. -/
def gotoTop (i : Invocation) : Reaction :=
  match i.count with
  | some _ => gotoPosition i
  | none => .emit (i.state.jumpTo (signed i.state.depth)) .moveToTop

/-- Has the host go to the item that the phrase names. -/
def gotoNamed (i : Invocation) : Reaction :=
  match i.operand with
  | some (.named name) => .report (some (.moveToNamed name))
  | _ => .nothing

/-! ## 2. Operations -/

/-- The register that an outcome uses. -/
def registerOf (outcome : Outcome) : String :=
  (outcome.effect.bind Effect.register).getD outcome.state.registerOrDefault

/-- The state of an outcome, and the command for it if it touches anything. -/
def finish (outcome : Outcome) (command : List Nat → String → Command) : Reaction :=
  if outcome.affected.isEmpty then .move outcome.state
  else .emit outcome.state (command outcome.affected (registerOf outcome))

/-- Whether or not there is a command, the state is that of the outcome. -/
theorem finish_after (outcome : Outcome) (command : List Nat → String → Command) (s : State) :
    (finish outcome command).after s = outcome.state := by
  unfold finish
  split <;> rfl

/-- What touches something sends its command. -/
theorem finish_of_ne {outcome : Outcome} {command : List Nat → String → Command}
    (h : outcome.affected ≠ []) :
    (finish outcome command).command
      = some (command outcome.affected (registerOf outcome)) := by
  have hne : ¬ outcome.affected.isEmpty = true := by simpa using h
  rw [finish, if_neg hne]
  rfl

/-- The outcome in another mode. -/
def landIn (mode : Mode) (outcome : Outcome) : Outcome :=
  { outcome with state := { outcome.state with mode := mode } }

/-- Deletes a range, the selection, or as many items as the count says. -/
def delete (i : Invocation) : Reaction :=
  finish
    (landIn .normal <| match i.operand with
      | some (.range start stop) => i.state.deleteRange start stop i.register
      | _ => i.state.deleteItems i.times i.register)
    .deleteItems

/-- Copies a range, the selection, or as many items as the count says. -/
def yank (i : Invocation) : Reaction :=
  finish
    (landIn .normal <| match i.operand with
      | some (.range start stop) => i.state.yankRange start stop i.register
      | _ => i.state.yankItems i.times i.register)
    .yankItems

/-- Deletes from the cursor to the position of the phrase. -/
def deleteToPosition (i : Invocation) : Reaction :=
  match i.operand with
  | some (.position target) =>
    finish (i.state.deleteToPosition target i.register) fun positions register =>
      .deleteToPosition positions (clamp target i.state.depth) register
  | _ => .nothing

/-- Copies from the cursor to the position of the phrase. -/
def yankToPosition (i : Invocation) : Reaction :=
  match i.operand with
  | some (.position target) =>
    finish (i.state.yankToPosition target i.register) fun positions register =>
      .yankToPosition positions (clamp target i.state.depth) register
  | _ => .nothing

/-- Pastes as many times as the count says. -/
def paste (after : Bool) (i : Invocation) : Reaction :=
  let outcome := i.state.pasteItems i.register after
  .emit outcome.state
    (.pasteItems (registerOf outcome) (outcome.affected.head?.getD i.state.position) i.times)

/-- Swaps the item under the cursor with its neighbour. -/
def swap (i : Invocation) : Reaction :=
  finish i.state.swapItems fun positions _ => .swapItems positions

/-- Rotates as many items as the count says, or as the settings say. -/
def rotate (i : Invocation) : Reaction :=
  finish (i.state.rotateItems (i.count.getD i.settings.rotateCount)) fun positions _ =>
    .rotateItems positions

/-- Has a new item opened next to the cursor. -/
def openItem (above : Bool) (i : Invocation) : Reaction :=
  .emit { i.state with mode := .insert, selection := none } (.openItem i.state.position above)

/-- Replaces the selection, or as many items as the count says. -/
def change (i : Invocation) : Reaction :=
  finish (landIn .insert (i.state.yankItems i.times i.register)) .changeItems

/-! ## 3. Modes and memory -/

/-- Has the host edit the item under the cursor. -/
def insertMode (i : Invocation) : Reaction := .move { i.state with mode := .insert }

/-- Begins a selection. -/
def visualMode (i : Invocation) : Reaction := .move i.state.enterVisual

/-- Gives the keys to the host's command line. -/
def commandMode (i : Invocation) : Reaction :=
  .move { i.state with mode := .command, selection := none }

/-- Begins a search. -/
def search (direction : Direction) (i : Invocation) : Reaction :=
  .move (i.state.startSearch direction)

/-- Has the host go to the next match of the last search, or the one before. -/
def nextMatch (reverse : Bool) (i : Invocation) : Reaction := .report (i.state.nextMatch reverse)

/-- Has the last change repeated. -/
def dotRepeat (i : Invocation) : Reaction := .report i.state.repeatChange

/-- Drops all that is half done, and returns to normal mode. -/
def escape (i : Invocation) : Reaction :=
  .move { i.state.clearBuffer with mode := .normal, pendingCount := none, selection := none }

/-! ## 4. The library -/

/-- The actions under their names. -/
def library : List Action :=
  [⟨"move_down", moveDown⟩, ⟨"move_up", moveUp⟩,
   ⟨"goto_position", gotoPosition⟩, ⟨"goto_bottom", gotoBottom⟩, ⟨"goto_top", gotoTop⟩,
   ⟨"goto_named", gotoNamed⟩,
   ⟨"delete", delete⟩, ⟨"yank", yank⟩,
   ⟨"delete_to_position", deleteToPosition⟩, ⟨"yank_to_position", yankToPosition⟩,
   ⟨"paste_after", paste true⟩, ⟨"paste_before", paste false⟩,
   ⟨"swap", swap⟩, ⟨"rotate", rotate⟩,
   ⟨"open_below", openItem false⟩, ⟨"open_above", openItem true⟩, ⟨"change", change⟩,
   ⟨"insert_mode", insertMode⟩, ⟨"visual_mode", visualMode⟩, ⟨"command_mode", commandMode⟩,
   ⟨"search_forward", search .forward⟩, ⟨"search_backward", search .backward⟩,
   ⟨"next_match", nextMatch false⟩, ⟨"prev_match", nextMatch true⟩,
   ⟨"dot_repeat", dotRepeat⟩, ⟨"escape", escape⟩]

/-- The library's action of this name. -/
def named? (name : String) : Option Action := library.find? fun a => a.name == name

end ModalStack.Action
