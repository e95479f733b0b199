/-
# Swapping and rotating notes

In the application `s` swaps the note under the cursor with its neighbour, and a number and `r`
rotate so many notes from the cursor upwards.  Both can be undone by typing them again: a swap once
more, and a rotation of `m` notes until it has been typed `m` times.

The engine chooses the positions and the application exchanges the notes, and the argument has a
part for each.

* **The notes.**  Swapping two items twice restores a list (`NoteStack.swapAt_swapAt`).  A rotation
  leaves what lies below the cursor and above the run alone, and is a rotation of the block between
  them, one step at a time (`NoteStack.iterate_rotated`); the block has `m` items, so `m` steps
  restore it.
* **The positions.**  They depend on the cursor, the depth and the count alone, and none of these
  changes while the commands are typed (`NoteApp.Reorders`), so it is the same pair and the same
  block from press to press (`NoteApp.TypingReorders.rounds`).

The engine clips the run at the top, and at the top it swaps with the note below.  Where fewer than
two notes would move it sends no command at all, and indeed nothing would come of one.
-/
import Mathlib.Data.List.Rotate
import ModalStack.Proofs.NotePresses

namespace ModalStack

open Numeral
open scoped List

namespace NoteStack

variable {items front block back : List String} {low high position count : Nat}

/-! ## 1. Swapped and rotated lists -/

theorem swapAt_perm (items : List String) (a b : Nat) : swapAt items a b ~ items := by
  unfold swapAt
  split
  · rename_i x y hx hy
    obtain ⟨ha, rfl⟩ := List.getElem?_eq_some_iff.mp hx
    obtain ⟨hb, rfl⟩ := List.getElem?_eq_some_iff.mp hy
    exact List.set_set_perm ha hb
  · exact List.Perm.refl _

/-- **Swapping twice restores a list.** -/
theorem swapAt_swapAt (items : List String) (a b : Nat) :
    swapAt (swapAt items a b) a b = items := by
  by_cases hin : a - 1 < items.length ∧ b - 1 < items.length
  · obtain ⟨ha, hb⟩ := hin
    refine List.ext_getElem? fun k => ?_
    grind [swapAt]
  · -- nothing was swapped
    grind [swapAt]

theorem lastToFront_eq_rotate (items : List String) :
    lastToFront items = items.rotate (items.length - 1) :=
  (List.rotate_eq_drop_append_take (Nat.sub_le _ _)).symm

/-- A rotation moves the block between its ends, and leaves what is around it alone. -/
theorem rotateBetween_append (hfront : front.length = low - 1)
    (hblock : (front ++ block).length = high) :
    rotateBetween (front ++ block ++ back) low high
      = front ++ block.rotate (block.length - 1) ++ back := by
  have hbelow : (front ++ block ++ back).take (low - 1) = front := by
    rw [List.append_assoc, List.take_left' hfront]
  have hbetween : ((front ++ block ++ back).take high).drop (low - 1) = block := by
    rw [List.take_left' hblock, List.drop_left' hfront]
  have habove : (front ++ block ++ back).drop high = back := List.drop_left' hblock
  rw [rotateBetween, lastToFront_eq_rotate, hbelow, hbetween, habove]

/-- What a swap makes of the items, with the cursor at a position. -/
def swapped (position : Nat) (items : List String) : List String :=
  if items.length < 2 then items
  else if items.length ≤ position then swapAt items items.length (items.length - 1)
  else swapAt items position (position + 1)

theorem length_swapped (position : Nat) (items : List String) :
    (swapped position items).length = items.length := by
  unfold swapped
  split
  · rfl
  · split
    · exact length_swapAt _ _ _
    · exact length_swapAt _ _ _

theorem swapped_perm (position : Nat) (items : List String) : swapped position items ~ items := by
  unfold swapped
  split
  · exact List.Perm.refl _
  · split
    · exact swapAt_perm _ _ _
    · exact swapAt_perm _ _ _

theorem swapped_swapped (position : Nat) (items : List String) :
    swapped position (swapped position items) = items := by
  -- the length decides which pair it is, and it stays
  rw [swapped, length_swapped]
  unfold swapped
  split
  · rfl
  · split
    · exact swapAt_swapAt _ _ _
    · exact swapAt_swapAt _ _ _

/-- What a rotation of `count` items makes of them, with the cursor at a position. -/
def rotated (position count : Nat) (items : List String) : List String :=
  rotateBetween items position (min (position + count - 1) items.length)

theorem rotated_append (h : 1 ≤ position) (hfront : front.length = position - 1)
    (hblock : block.length = min count ((front ++ block ++ back).length + 1 - position)) :
    rotated position count (front ++ block ++ back)
      = front ++ block.rotate (block.length - 1) ++ back := by
  refine rotateBetween_append hfront ?_
  simp only [List.length_append] at hblock ⊢
  omega

/-- A rotation that is repeated rotates the block again and again. -/
theorem iterate_rotated_append (h : 1 ≤ position) (hfront : front.length = position - 1)
    (hblock : block.length = min count ((front ++ block ++ back).length + 1 - position)) (k : Nat) :
    (rotated position count)^[k] (front ++ block ++ back)
      = front ++ block.rotate ((block.length - 1) * k) ++ back := by
  induction k generalizing block with
  | zero => rw [Nat.mul_zero, List.rotate_zero, Function.iterate_zero_apply]
  | succ k ih =>
    -- the block is as long as before, so it is the same block that moves next
    have hlength : (block.rotate (block.length - 1)).length = block.length :=
      List.length_rotate block (block.length - 1)
    have hnext : (block.rotate (block.length - 1)).length
        = min count ((front ++ block.rotate (block.length - 1) ++ back).length + 1 - position) := by
      simpa only [List.length_append, hlength] using hblock
    rw [Function.iterate_succ_apply, rotated_append h hfront hblock, ih hnext, hlength,
      List.rotate_rotate, Nat.mul_succ, Nat.add_comm]

/-- The items that a rotation of `count` moves, with the cursor at a position. -/
def moving (position count : Nat) (items : List String) : List String :=
  (items.drop (position - 1)).take count

theorem length_moving (h : 1 ≤ position) (count : Nat) (items : List String) :
    (moving position count items).length = min count (items.length + 1 - position) := by
  rw [moving, List.length_take, List.length_drop]
  omega

/-- They lie between the items below the cursor and those above the run. -/
theorem around_moving (position count : Nat) (items : List String) :
    items.take (position - 1) ++ moving position count items
      ++ (items.drop (position - 1)).drop count = items := by
  rw [List.append_assoc, moving, List.take_append_drop, List.take_append_drop]

/-- **A rotation that is repeated**: the items that move are rotated so many times, and the others
stay. -/
theorem iterate_rotated (h₁ : 1 ≤ position) (h₂ : position ≤ max 1 items.length) (count k : Nat) :
    (rotated position count)^[k] items
      = items.take (position - 1)
        ++ (moving position count items).rotate
          ((min count (items.length + 1 - position) - 1) * k)
        ++ (items.drop (position - 1)).drop count := by
  have hfront : (items.take (position - 1)).length = position - 1 :=
    List.length_take_of_le (by omega)
  have hblock := length_moving h₁ count items
  have hrounds := iterate_rotated_append h₁ hfront
    (hblock.trans (by rw [around_moving position count items])) k
  rwa [around_moving position count items, hblock] at hrounds

theorem rotated_perm (h₁ : 1 ≤ position) (h₂ : position ≤ max 1 items.length) (count : Nat) :
    rotated position count items ~ items := by
  have honce := iterate_rotated h₁ h₂ count 1
  rw [Function.iterate_one] at honce
  have hparts := around_moving position count items
  rw [honce]
  exact (((List.rotate_perm _ _).append_left _).append_right _).trans (List.Perm.of_eq hparts)

/-- After as many rotations as items move, all are where they were. -/
theorem iterate_rotated_eq_self (h₁ : 1 ≤ position) (h₂ : position ≤ max 1 items.length)
    (count : Nat) :
    (rotated position count)^[min count (items.length + 1 - position)] items = items := by
  rw [iterate_rotated h₁ h₂, ← length_moving h₁, Nat.mul_comm, List.rotate_length_mul,
    around_moving]

/-- A rotation of one item moves nothing. -/
theorem rotated_eq_self (h₁ : 1 ≤ position) (h₂ : position ≤ max 1 items.length)
    (hfew : min count (items.length + 1 - position) < 2) :
    rotated position count items = items := by
  have honce := iterate_rotated h₁ h₂ count 1
  have hnone : min count (items.length + 1 - position) - 1 = 0 := by omega
  rwa [Function.iterate_one, hnone, Nat.zero_mul, List.rotate_zero, around_moving] at honce

end NoteStack

/-! ## 2. What the commands ask for -/

/-- The action leaves the state as it is and asks for this to be made of the items, with the cursor
at a position and as many items as the engine believes. -/
structure Action.Rearranges (run : Invocation → Reaction) (position : Nat) (count : Option Nat)
    (f : List String → List String) : Prop where
  after : ∀ i : Invocation, (run i).after i.state = i.state
  apply : ∀ (i : Invocation) (s : NoteStack), i.state.position = position →
    i.state.depth = s.items.length → position ≤ max 1 s.items.length → i.count = count →
    (run i).command.toList.foldl NoteStack.apply s = { s with items := f s.items }
  depth : ∀ i : Invocation, ∀ c ∈ (run i).command, NoteStack.resizes c = false

namespace Action

/-- What touches nothing sends nothing. -/
theorem finish_of_eq_nil {outcome : Outcome} {command : List Nat → String → Command}
    (h : outcome.affected = []) : (finish outcome command).command = none := by
  rw [finish, if_pos (List.isEmpty_iff.mpr h)]
  rfl

theorem swap_rearranges (position : Nat) (count : Option Nat) :
    Rearranges swap position count (NoteStack.swapped position) where
  after i := finish_after _ _ _
  apply i s hposition hdepth _ _ := by
    have haffected : i.state.swapItems.affected = i.state.swapPositions := rfl
    by_cases hfew : s.items.length < 2
    · have hnone : i.state.swapPositions = [] := if_pos (by omega)
      rw [swap, finish_of_eq_nil (haffected.trans hnone), NoteStack.swapped, if_pos hfew]
      rfl
    · have hmany : ¬ i.state.depth < 2 := by omega
      have hne : i.state.swapPositions ≠ [] := by
        rw [State.swapPositions, if_neg hmany]
        split
        · exact List.cons_ne_nil _ _
        · exact List.cons_ne_nil _ _
      rw [swap, finish_of_ne (haffected ▸ hne), haffected, State.swapPositions, if_neg hmany,
        NoteStack.swapped, if_neg hfew, hposition, hdepth]
      split
      · rfl
      · rfl
  depth i c hc := by
    obtain ⟨-, rfl⟩ := finish_command hc
    rfl

theorem rotate_rearranges {position n : Nat} (h₁ : 1 ≤ position) (hn : 1 ≤ n) :
    Rearranges rotate position (some n) (NoteStack.rotated position n) where
  after i := finish_after _ _ _
  apply i s hposition hdepth hle hcount := by
    have haffected : (i.state.rotateItems (i.count.getD i.settings.rotateCount)).affected
        = i.state.rotatePositions n := by rw [hcount]; rfl
    have hrun : i.state.runFromCursor n
        = positionsBetween position (min (position + n - 1) s.items.length) := by
      rw [State.runFromCursor, if_neg (by omega), hposition, hdepth, Nat.add_sub_assoc hn]
    by_cases hfew : (i.state.runFromCursor n).length < 2
    · have hnone : i.state.rotatePositions n = [] := if_pos hfew
      rw [hrun, length_positionsBetween] at hfew
      rw [rotate, finish_of_eq_nil (haffected.trans hnone)]
      rw [NoteStack.rotated_eq_self h₁ hle (by omega)]
      rfl
    · have hall : i.state.rotatePositions n
          = positionsBetween position (min (position + n - 1) s.items.length) :=
        (if_neg hfew).trans hrun
      rw [hrun, length_positionsBetween] at hfew
      have hends : position ≤ min (position + n - 1) s.items.length := by omega
      have hne : i.state.rotatePositions n ≠ [] := by
        rw [hall]
        exact List.ne_nil_of_mem (mem_positionsBetween.mpr ⟨Nat.le_refl _, hends⟩)
      rw [rotate, finish_of_ne (haffected ▸ hne), haffected, hall, Option.toList_some,
        List.foldl_cons, List.foldl_nil, NoteStack.apply]
      simp only [head?_positionsBetween hends, getLast?_positionsBetween hends]
      rfl
  depth i c hc := by
    obtain ⟨-, rfl⟩ := finish_command hc
    rfl

end Action

/-! ## 3. Typing them -/

namespace Engine.Idle

variable {η : Type} {e : Engine η} {ds : List Char}

/-- Digits are held, and nothing is asked for. -/
theorem run_digits (h : e.Idle) (hds : ds.all Char.isDigit = true) :
    (e.run (pressing (ds.map .plain))).state = e.state.holding ds ∧
      e.asked (pressing (ds.map .plain)) = [] := by
  have hplain : ∀ c ∈ ds, IsPlain c := fun c hc =>
    isPlain_of_isDigit (List.all_eq_true.mp hds c hc)
  rw [State.holding_eq]
  refine h.run_awaits (Engine.Waits.continues_of_plain hplain) ?_
  rw [KeyPress.map_token_plain]
  exact (Keymap.awaits_digits hds).keys

end Engine.Idle

namespace NoteApp

open Engine (pressing)

variable {app app' app'' : NoteApp} {position n : Nat} {run : Invocation → Reaction} {op : Char}
  {ds cs : List Char} {f : List String → List String}

/-- The notes are in another order, perhaps, and everything else that the commands could have
touched is as it was: what the registers hold, the cursor, the depth and the workspaces. -/
structure Reorders (app app' : NoteApp) : Prop where
  items : app'.stack.items ~ app.stack.items
  registers : app'.stack.registers = app.stack.registers
  held : app'.engine.state.registers = app.engine.state.registers
  position : app'.engine.state.position = app.engine.state.position
  depth : app'.engine.state.depth = app.engine.state.depth
  workspaces : app.SameWorkspaces app'

theorem Reorders.trans (h : app.Reorders app') (h' : app'.Reorders app'') : app.Reorders app'' where
  items := h'.items.trans h.items
  registers := h'.registers.trans h.registers
  held := h'.held.trans h.held
  position := h'.position.trans h.position
  depth := h'.depth.trans h.depth
  workspaces := h.workspaces.trans h'.workspaces

/-- In every application that waits with the cursor at a position, typing the text makes this of
the notes and waits again, and on the way too the notes are reordered at most. -/
structure TypingReorders (position : Nat) (cs : List Char) (f : List String → List String) :
    Prop where
  waits : ∀ app : NoteApp, app.Waits → app.engine.state.position = position →
    (app.handleAll (cs.map .plain)).Waits
  items : ∀ app : NoteApp, app.Waits → app.engine.state.position = position →
    (app.handleAll (cs.map .plain)).stack.items = f app.stack.items
  reorders : ∀ app : NoteApp, app.Waits → app.engine.state.position = position →
    ∀ front, front <+: cs → app.Reorders (app.handleAll (front.map .plain))

/-- The cursor is on the notes, or at 1 if there are none. -/
theorem Waits.position_le (h : app.Waits) :
    app.engine.state.position ≤ max 1 app.stack.items.length := by
  have hdepth : app.engine.state.depth = app.stack.items.length := h.inStep.depth rfl
  rw [← hdepth]
  exact h.inStep.bounded.le_depth

/-- Behind digits the engine is in normal mode still. -/
theorem Waits.mode_behind (h : app.Waits) (hds : ds.all Char.isDigit = true) {front : List Char}
    (hfront : front <+: ds) :
    (app.engine.run (pressing (front.map .plain))).state.mode = .normal := by
  have hdigits : front.all Char.isDigit = true :=
    List.all_eq_true.mpr fun c hc => List.all_eq_true.mp hds c (hfront.subset hc)
  rw [(h.idle.run_digits hdigits).1]
  exact h.idle.mode

/-- Digits change nothing. -/
theorem Waits.digits_reorder (h : app.Waits) (hds : ds.all Char.isDigit = true) :
    app.Reorders (app.handleAll (ds.map .plain)) := by
  obtain ⟨hstate, hasked⟩ := h.idle.run_digits hds
  have hfollowed : app.Followed (app.handleAll (ds.map .plain)) ds := by
    refine h.inStep.followed ?_ ?_
    · exact fun front c hfront => h.mode_behind hds ((List.prefix_append front [c]).trans hfront)
    · rw [hasked]
      exact fun d hd => absurd hd List.not_mem_nil
  have hengine : (app.handleAll (ds.map .plain)).engine.state = app.engine.state.holding ds := by
    rw [hfollowed.engine, hstate]
  have hstack : (app.handleAll (ds.map .plain)).stack = app.stack := by
    rw [hfollowed.stack, hasked]
    rfl
  refine ⟨?_, ?_, ?_, ?_, ?_, hfollowed.workspaces⟩
  · rw [hstack]
  · rw [hstack]
  · rw [hengine]
    rfl
  · rw [hengine]
    rfl
  · rw [hengine]
    rfl

/-- **A command that does not resize the stack**, typed behind digits: the application goes with
its engine. -/
theorem Waits.followed_command (h : app.Waits)
    (hdepth : ∀ c ∈ app.engine.asked (pressing ((ds ++ [op]).map .plain)),
      NoteStack.resizes c = false) (hds : ds.all Char.isDigit = true) :
    app.Followed (app.handleAll ((ds ++ [op]).map .plain)) (ds ++ [op]) := by
  refine h.inStep.followed ?_ hdepth
  intro front c hfront
  refine h.mode_behind hds ?_
  rcases List.prefix_concat_iff.mp hfront with heq | hin
  · obtain ⟨rfl, -⟩ := List.append_singleton_inj.mp heq
    exact List.prefix_refl front
  · exact (List.prefix_append front [c]).trans hin

/-- **A command that rearranges the items**, typed behind digits: the items are rearranged, and the
application waits as before. -/
theorem Waits.rearranged (h : app.Waits) (hop : CountedCommand [.plain op] run)
    (hds : ds.all Char.isDigit = true)
    (hrun : Action.Rearranges run app.engine.state.position (count? ds) f)
    (hperm : f app.stack.items ~ app.stack.items) :
    (app.handleAll ((ds ++ [op]).map .plain)).Waits ∧
      (app.handleAll ((ds ++ [op]).map .plain)).stack.items = f app.stack.items ∧
      app.Reorders (app.handleAll ((ds ++ [op]).map .plain)) := by
  obtain ⟨i, ts, hi, hcount, ⟨_, _, _, hstate⟩, hasked⟩ := h.idle.run_counted hop hds
  have hpresses : ds.map .plain ++ [.plain op] = (ds ++ [op]).map KeyPress.plain := by
    rw [List.map_append, List.map_singleton]
  rw [hpresses] at hstate hasked
  rw [h.count, Option.or_none] at hcount
  have hfollowed := h.followed_command
    (fun c hc => hrun.depth i c (Option.mem_toList.mp (hasked ▸ hc))) hds
  -- the action saw the cursor and the depth of the application
  have hplace : i.state.position = app.engine.state.position := by
    rw [hi]
    rfl
  have hdepth : i.state.depth = app.stack.items.length := by
    rw [hi]
    exact h.inStep.depth rfl
  have hstack : (app.handleAll ((ds ++ [op]).map .plain)).stack
      = { app.stack with items := f app.stack.items } := by
    rw [hfollowed.stack, hasked]
    exact hrun.apply i app.stack hplace hdepth h.position_le hcount
  rw [(hrun.after i).trans hi, ← hfollowed.engine] at hstate
  refine ⟨⟨h.inStep.handleAll _, ⟨?_, ?_, ?_, ?_⟩, ?_⟩, ?_, ?_, ?_, ?_, ?_, ?_,
    hfollowed.workspaces⟩
  · rw [hfollowed.engine, Engine.run_keymaps]
    exact h.idle.keymaps
  · rw [hstate]
    exact h.idle.mode
  · rw [hstate]
  · rw [hstate]
  · rw [hstate]
  · rw [hstack]
  · rw [hstack]
    exact hperm
  · rw [hstack]
  · rw [hstate]
    rfl
  · rw [hstate]
    rfl
  · rw [hstate]
    rfl

/-- Where the cursor stands is all that it depends on. -/
theorem typingReorders_of_command (hop : CountedCommand [.plain op] run)
    (hds : ds.all Char.isDigit = true) (hrun : Action.Rearranges run position (count? ds) f)
    (hperm : ∀ items : List String, position ≤ max 1 items.length → f items ~ items) :
    TypingReorders position (ds ++ [op]) f := by
  have hround : ∀ app : NoteApp, app.Waits → app.engine.state.position = position →
      (app.handleAll ((ds ++ [op]).map .plain)).Waits ∧
        (app.handleAll ((ds ++ [op]).map .plain)).stack.items = f app.stack.items ∧
        app.Reorders (app.handleAll ((ds ++ [op]).map .plain)) := by
    rintro app h rfl
    exact h.rearranged hop hds hrun (hperm _ h.position_le)
  refine ⟨fun app h hp => (hround app h hp).1, fun app h hp => (hround app h hp).2.1, ?_⟩
  intro app h hp front hfront
  rcases List.prefix_concat_iff.mp hfront with rfl | hin
  · exact (hround app h hp).2.2
  · -- the operator is still missing
    exact h.digits_reorder
      (List.all_eq_true.mpr fun c hc => List.all_eq_true.mp hds c (hin.subset hc))

/-- **From press to press.**  What a text does to the notes, it does again when it is typed again,
and it may be left off at any time. -/
theorem TypingReorders.rounds (h : TypingReorders position cs f) (k : Nat) :
    TypingReorders position (List.replicate k cs).flatten f^[k] := by
  induction k with
  | zero =>
    refine ⟨fun app happ _ => happ, fun app _ _ => rfl, ?_⟩
    intro app _ _ front hfront
    obtain rfl := List.prefix_nil.mp hfront
    exact ⟨List.Perm.refl _, rfl, rfl, rfl, rfl, rfl, rfl⟩
  | succ k ih =>
    -- the first round, and the others from where it leads
    have hfirst : ∀ app : NoteApp, app.Waits → app.engine.state.position = position →
        app.Reorders (app.handleAll (cs.map .plain)) ∧
          (app.handleAll (cs.map .plain)).Waits ∧
          (app.handleAll (cs.map .plain)).engine.state.position = position := by
      intro app happ hposition
      have hround := h.reorders app happ hposition cs (List.prefix_refl cs)
      exact ⟨hround, h.waits app happ hposition, hround.position.trans hposition⟩
    have hsplit : ∀ (app : NoteApp) (rest : List Char),
        app.handleAll ((cs ++ rest).map .plain)
          = (app.handleAll (cs.map .plain)).handleAll (rest.map .plain) := by
      intro app rest
      rw [List.map_append, handleAll, List.foldl_append]
      rfl
    rw [List.replicate_succ, List.flatten_cons]
    refine ⟨?_, ?_, ?_⟩
    · intro app happ hposition
      obtain ⟨-, hwaits, hsame⟩ := hfirst app happ hposition
      rw [hsplit]
      exact ih.waits _ hwaits hsame
    · intro app happ hposition
      obtain ⟨-, hwaits, hsame⟩ := hfirst app happ hposition
      rw [hsplit, ih.items _ hwaits hsame, h.items app happ hposition, Function.iterate_succ_apply]
    · intro app happ hposition front hfront
      obtain ⟨hround, hwaits, hsame⟩ := hfirst app happ hposition
      rcases List.prefix_or_prefix_of_prefix hfront (List.prefix_append cs _) with hin | hout
      · exact h.reorders app happ hposition front hin
      · obtain ⟨rest, rfl⟩ := hout
        have hrest : rest <+: (List.replicate k cs).flatten :=
          (List.prefix_append_right_inj cs).mp hfront
        rw [hsplit]
        exact hround.trans (ih.reorders _ hwaits hsame rest hrest)

/-! ## 4. Undone by typing again -/

/-- `s` swaps the note under the cursor. -/
theorem swap_typingReorders (position : Nat) :
    TypingReorders position ['s'] (NoteStack.swapped position) := by
  have hop : CountedCommand [.plain 's'] Action.swap := .key (List.mem_of_getElem? (i := 9) rfl)
  exact typingReorders_of_command hop (rfl : [].all Char.isDigit = true)
    (Action.swap_rearranges position _) fun items _ => NoteStack.swapped_perm position items

/-- A number and `r` rotate so many notes. -/
theorem rotate_typingReorders (h : 1 ≤ position) (hds : IsNumeral ds n) (h₁ : 1 ≤ n)
    (h₂ : n ≤ maxCount) :
    TypingReorders position (ds ++ ['r']) (NoteStack.rotated position n) := by
  have hop : CountedCommand [.plain 'r'] Action.rotate :=
    .key (List.mem_of_getElem? (i := 10) rfl)
  have hcount : count? ds = some n := by rw [count?_eq_readCount hds h₁, readCount, if_pos h₂]
  have hrun : Action.Rearranges Action.rotate position (count? ds) (NoteStack.rotated position n) :=
    hcount ▸ Action.rotate_rearranges h h₁
  exact typingReorders_of_command hop hds.digits hrun fun items hle =>
    NoteStack.rotated_perm h hle n

/-- **Swapping and rotating are undone by typing them again.**  In a state that the application
reaches from its start, let it be in normal mode with nothing half typed and no count set.  Then `s`
swaps the note under the cursor with its neighbour, and `ss` restores the notes.  A number from 1 to
`maxCount` and `r`, typed `k` times, rotate the notes from the cursor upwards that the number takes
`k` times; if these are `m` notes, `m` times restore them, and if they are fewer than two, nothing
ever changes.  However often the commands are typed, and wherever the typing is left off, the notes
are those from before in some order, and the registers, the cursor and the depth are as they
were. -/
theorem start_reorderings_undone (presses : List TerminalPress)
    (hmode : (start.handleAll presses).engine.state.mode = .normal)
    (hbuffer : (start.handleAll presses).engine.state.buffer = "")
    (hcount : (start.handleAll presses).engine.state.pendingCount = none) :
    let app := start.handleAll presses
    let position := app.engine.state.position
    let items := app.stack.items
    ((∀ k front, front <+: (List.replicate k ['s']).flatten →
        app.Reorders (app.handleAll (front.map .plain))) ∧
      (app.handleAll (['s'].map .plain)).stack.items = NoteStack.swapped position items ∧
      (app.handleAll (['s', 's'].map .plain)).stack.items = items) ∧
    ∀ ds n, IsNumeral ds n → 1 ≤ n → n ≤ maxCount →
      let rounds := fun k => (List.replicate k (ds ++ ['r'])).flatten
      let m := min n (items.length + 1 - position)
      (∀ k front, front <+: rounds k → app.Reorders (app.handleAll (front.map .plain))) ∧
        (∀ k, (app.handleAll ((rounds k).map .plain)).stack.items =
          items.take (position - 1)
            ++ (NoteStack.moving position n items).rotate ((m - 1) * k)
            ++ (items.drop (position - 1)).drop n) ∧
        (app.handleAll ((rounds m).map .plain)).stack.items = items ∧
        (m < 2 → ∀ k, (app.handleAll ((rounds k).map .plain)).stack.items = items) := by
  intro app position items
  have happ : app.Waits := start_waits presses hmode hbuffer hcount
  have hone : 1 ≤ position := happ.inStep.bounded.one_le
  have hle : position ≤ max 1 items.length := happ.position_le
  have hswap := swap_typingReorders position
  refine ⟨⟨fun k => (hswap.rounds k).reorders app happ rfl, hswap.items app happ rfl, ?_⟩, ?_⟩
  · exact ((hswap.rounds 2).items app happ rfl).trans (NoteStack.swapped_swapped _ _)
  · intro ds n hds h₁ h₂ rounds m
    have hrotate := rotate_typingReorders hone hds h₁ h₂
    refine ⟨fun k => (hrotate.rounds k).reorders app happ rfl, fun k => ?_, ?_, fun hfew k => ?_⟩
    · exact ((hrotate.rounds k).items app happ rfl).trans (NoteStack.iterate_rotated hone hle n k)
    · exact ((hrotate.rounds m).items app happ rfl).trans
        (NoteStack.iterate_rotated_eq_self hone hle n)
    · have hfixed : NoteStack.rotated position n items = items :=
        NoteStack.rotated_eq_self hone hle hfew
      exact ((hrotate.rounds k).items app happ rfl).trans (Function.iterate_fixed hfixed k)

/-- From the third of six notes upwards, `9r` takes four, and the fourth time they are all back. -/
theorem start_rotation_undone :
    ∃ app, app = start.handleAll (typingLine "jj") ∧
      (app.engine.state.mode = .normal ∧ app.engine.state.buffer = "" ∧
        app.engine.state.pendingCount = none) ∧
      IsNumeral ['9'] 9 ∧ min 9 (app.stack.items.length + 1 - app.engine.state.position) = 4 ∧
      (app.handleAll ((['9'] ++ ['r']).map .plain)).stack.items ≠ app.stack.items ∧
      (app.handleAll (((List.replicate 4 (['9'] ++ ['r'])).flatten).map .plain)).stack.items
        = app.stack.items := by
  have hmode : (start.handleAll (typingLine "jj")).engine.state.mode = .normal := by
    decide +kernel
  have hbuffer : (start.handleAll (typingLine "jj")).engine.state.buffer = "" := by
    decide +kernel
  have hcount : (start.handleAll (typingLine "jj")).engine.state.pendingCount = none := by
    decide +kernel
  have hds : IsNumeral ['9'] 9 := ⟨by decide, by decide, by decide⟩
  have hm : min 9 ((start.handleAll (typingLine "jj")).stack.items.length + 1
      - (start.handleAll (typingLine "jj")).engine.state.position) = 4 := by
    decide +kernel
  obtain ⟨-, hrotate⟩ := start_reorderings_undone (typingLine "jj") hmode hbuffer hcount
  obtain ⟨-, -, hrestored, -⟩ := hrotate ['9'] 9 hds (by decide) (by decide)
  rw [hm] at hrestored
  exact ⟨_, rfl, ⟨hmode, hbuffer, hcount⟩, hds, hm, by decide +kernel, hrestored⟩

end NoteApp

end ModalStack
