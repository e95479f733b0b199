/-
# Actions with checked arithmetic

The actions compute with numbers that never stop them: a sum that is too large wraps around, a
difference is zero at least, and every position has some view with a sign.  A program that computes
in 64 bits stops in such places, or goes on with another number than it meant.  Here the actions
that add, subtract or convert are carried out once more, and each such step is checked: the result
must be the number that is meant.

A sum that saturates, and a number that is brought into bounds, are meant to be what they are, so
nothing is checked there.
-/
import ModalStack.Action.Library

namespace ModalStack

/-- Why a number is not the one that is meant. -/
inductive WordFault where
  /-- The result is too large for its type. -/
  | overflow
  /-- The result is too small for its type. -/
  | underflow
  /-- The number has no counterpart with a sign. -/
  | inexact
  deriving DecidableEq

/-- A step that succeeds makes way for the next. -/
theorem ok_bind {ε α β : Type} (a : α) (f : α → Except ε β) : (Except.ok a >>= f) = f a := rfl

/-! ## 1. Numbers -/

/-- The sum of two numbers of 64 bits. -/
def add? (a b : Nat) : Except WordFault Nat :=
  if a + b < wordSize then .ok (a + b) else .error .overflow

/-- The difference of two numbers of 64 bits. -/
def sub? (a b : Nat) : Except WordFault Nat :=
  if b ≤ a then .ok (a - b) else .error .underflow

/-- A number of 64 bits, taken for one with a sign. -/
def toSigned? (n : Nat) : Except WordFault Int :=
  if n ≤ maxSigned then .ok n else .error .inexact

/-- The difference of two numbers of 64 bits with a sign. -/
def signedSub? (a b : Int) : Except WordFault Int :=
  if a - b < minSigned then .error .underflow
  else if maxSigned < a - b then .error .overflow
  else .ok (a - b)

/-- How many positions are selected. -/
def Selection.span? (s : Selection) : Except WordFault Nat := do
  let difference ← sub? s.high s.low
  add? difference 1

/-! ## 2. Motions and operations -/

namespace State

/-- The cursor moves up by `offset`, or down if it is negative. -/
def moveBy? (s : State) (offset : Int) : Except WordFault State := do
  let start ← toSigned? s.position
  let target := clampSigned (addSaturating start offset) s.depth
  return { s with position := target, selection := s.selectionTowards target }

/-- The cursor moves to a position by the difference. -/
def extendTo? (s : State) (position : Int) : Except WordFault State := do
  let start ← toSigned? s.position
  s.moveBy? (addSaturating position (-start))

/-- The cursor goes to a position, with the selection in visual mode. -/
def jumpTo? (s : State) (position : Int) : Except WordFault State :=
  match s.mode with
  | .visual => s.extendTo? position
  | _ => return s.moveTo position

/-- How many items an operation on `count` items means to touch. -/
def intendedSize? (s : State) (count : Nat) : Except WordFault Nat :=
  match s.selection with
  | some sel => sel.span?
  | none => return max count 1

/-- Deletes the selection, or `count` items from the cursor upwards. -/
def deleteItems? (s : State) (count : Nat) (register : Option String) :
    Except WordFault Outcome := do
  let size ← s.intendedSize? count
  return {
    state := s.afterRemoval size (targetRegister register)
    affected := s.affectedPositions count
    effect := some ⟨.delete, some (targetRegister register)⟩ }

/-- Has the contents of a register put in at the cursor, or behind it. -/
def pasteItems? (s : State) (register : Option String) (after : Bool) :
    Except WordFault Outcome := do
  let target ← add? s.position (if after then 0 else 1)
  return {
    state := s.afterCopy (targetRegister register)
    affected := [target]
    effect := some ⟨.move, some (targetRegister register)⟩ }

/-- The item under the cursor and its neighbour above, or below if it is the top one. -/
def swapPositions? (s : State) : Except WordFault (List Nat) :=
  if s.depth < 2 then return []
  else if s.depth ≤ s.position then do
    let below ← sub? s.depth 1
    return [s.depth, below]
  else do
    let above ← add? s.position 1
    return [s.position, above]

/-- Swaps the item under the cursor with its neighbour. -/
def swapItems? (s : State) : Except WordFault Outcome := do
  let positions ← s.swapPositions?
  return ⟨s, positions, effectOn positions .swap⟩

end State

/-! ## 3. Actions -/

namespace Action

/-- Moves the cursor, and reports how far it went. -/
def moveRelative? (i : Invocation) (offset : Int) : Except WordFault Reaction := do
  let next ← i.state.moveBy? offset
  let stop ← toSigned? next.position
  let start ← toSigned? i.state.position
  let distance ← signedSub? stop start
  return .emit next (.moveRelative distance)

/-- Counts the position up. -/
def moveDown? (i : Invocation) : Except WordFault Reaction := moveRelative? i i.times

/-- Counts the position down. -/
def moveUp? (i : Invocation) : Except WordFault Reaction := moveRelative? i (-i.times)

/-- Goes to the position of the phrase, or to the one that the count gives. -/
def gotoPosition? (i : Invocation) : Except WordFault Reaction := do
  let target : Int := match i.operand with
    | some (.position n) => signed n
    | _ => i.times
  let next ← i.state.jumpTo? target
  return .emit next (.moveToPosition next.position)

/-- Goes to position 1. -/
def gotoBottom? (i : Invocation) : Except WordFault Reaction := do
  let next ← i.state.jumpTo? 1
  return .emit next .moveToBottom

/-- Goes to the top, or to a position if there is a count. -/
def gotoTop? (i : Invocation) : Except WordFault Reaction :=
  match i.count with
  | some _ => gotoPosition? i
  | none => do
    let next ← i.state.jumpTo? (signed i.state.depth)
    return .emit next .moveToTop

/-- Deletes a range, the selection, or as many items as the count says. -/
def delete? (i : Invocation) : Except WordFault Reaction := do
  let outcome ← match i.operand with
    | some (.range start stop) => pure (i.state.deleteRange start stop i.register)
    | _ => i.state.deleteItems? i.times i.register
  return finish (landIn .normal outcome) .deleteItems

/-- Pastes as many times as the count says. -/
def paste? (after : Bool) (i : Invocation) : Except WordFault Reaction := do
  let outcome ← i.state.pasteItems? i.register after
  return .emit outcome.state
    (.pasteItems (registerOf outcome) (outcome.affected.head?.getD i.state.position) i.times)

/-- Swaps the item under the cursor with its neighbour. -/
def swap? (i : Invocation) : Except WordFault Reaction := do
  let outcome ← i.state.swapItems?
  return finish outcome fun positions _ => .swapItems positions

/-- An action, and the same with checked arithmetic. -/
structure Checked where
  plain : Action
  run : Invocation → Except WordFault Reaction

/-- An action in which there is nothing to check. -/
def unchecked (a : Action) : Checked := ⟨a, fun i => .ok (a.run i)⟩

/-- The library with checked arithmetic. -/
def checkedLibrary : List Checked :=
  [⟨⟨"move_down", moveDown⟩, moveDown?⟩, ⟨⟨"move_up", moveUp⟩, moveUp?⟩,
   ⟨⟨"goto_position", gotoPosition⟩, gotoPosition?⟩,
   ⟨⟨"goto_bottom", gotoBottom⟩, gotoBottom?⟩, ⟨⟨"goto_top", gotoTop⟩, gotoTop?⟩,
   unchecked ⟨"goto_named", gotoNamed⟩,
   ⟨⟨"delete", delete⟩, delete?⟩, unchecked ⟨"yank", yank⟩,
   unchecked ⟨"delete_to_position", deleteToPosition⟩,
   unchecked ⟨"yank_to_position", yankToPosition⟩,
   ⟨⟨"paste_after", paste true⟩, paste? true⟩, ⟨⟨"paste_before", paste false⟩, paste? false⟩,
   ⟨⟨"swap", swap⟩, swap?⟩, unchecked ⟨"rotate", rotate⟩,
   unchecked ⟨"open_below", openItem false⟩, unchecked ⟨"open_above", openItem true⟩,
   unchecked ⟨"change", change⟩,
   unchecked ⟨"insert_mode", insertMode⟩, unchecked ⟨"visual_mode", visualMode⟩,
   unchecked ⟨"command_mode", commandMode⟩,
   unchecked ⟨"search_forward", search .forward⟩,
   unchecked ⟨"search_backward", search .backward⟩,
   unchecked ⟨"next_match", nextMatch false⟩, unchecked ⟨"prev_match", nextMatch true⟩,
   unchecked ⟨"dot_repeat", dotRepeat⟩, unchecked ⟨"escape", escape⟩]

/-- It is the whole library. -/
theorem map_plain_checkedLibrary : checkedLibrary.map Checked.plain = library := rfl

end Action

end ModalStack
