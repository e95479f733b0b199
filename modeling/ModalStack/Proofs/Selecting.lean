/-
# What is selected

A selection is begun with `v` at the cursor.  From then on one end follows the cursor and the
other, the anchor, stays where the cursor was, for as long as visual mode is on and the host
reports no depth: a motion takes the head along, keys that are awaited or rejected change nothing
but the buffer, and every other action of the mode leaves it (`Bound.keeps_anchor`).  So what is
selected depends on the first and on the last position of the cursor alone
(`Engine.Waits.selection_anchored`).

An operator without a range of its own takes the selected items, in ascending order and whatever
the count.  That is the same as taking the range between the ends, except on an empty stack, where
there may be a selection but there are no ranges (`State.OnStack.affectedPositions_eq_iff`).
-/
import ModalStack.Proofs.Removals
import ModalStack.Proofs.TypedNumbers

namespace ModalStack

/-! ## 1. Selections and ranges -/

namespace State.OnStack

variable {s : State} {sel : Selection}

/-- **Where a selection is a range**: on every stack that is not empty. -/
theorem affectedPositions_eq_iff (h : s.OnStack) (hsel : s.selection = some sel) (count : Nat) :
    s.affectedPositions count = s.rangePositions sel.anchor sel.head ↔ 1 ≤ s.depth := by
  have hselected : s.affectedPositions count = positionsBetween sel.low sel.high := by
    simp only [State.affectedPositions, hsel]
  rw [hselected]
  constructor
  · intro heq
    rcases Nat.eq_zero_or_pos s.depth with hzero | hpos
    · have hnil : s.rangePositions sel.anchor sel.head = [] := if_pos hzero
      exact absurd (heq.trans hnil) (positionsBetween_ne_nil sel.low_le_high)
    · exact hpos
  · intro hd
    obtain ⟨hlow, hhigh⟩ := h.selection sel hsel
    simp only [Selection.low, Selection.high] at hlow hhigh
    have hanchor : clamp sel.anchor s.depth = sel.anchor := clamp_of_mem (by omega) (by omega)
    have hhead : clamp sel.head s.depth = sel.head := clamp_of_mem (by omega) (by omega)
    rw [rangePositions_eq hd, hanchor, hhead, Selection.low, Selection.high]

/-- The engine means to touch as many items as are selected. -/
theorem intendedSize_eq (h : s.OnStack) (hsel : s.selection = some sel) (count : Nat) :
    s.intendedSize count = (s.affectedPositions count).length := by
  simp only [intendedSize, State.affectedPositions, hsel]
  exact h.span_eq hsel

/-- **To delete or copy the selection is to delete or copy the range between its ends**, on a
stack that is not empty, whichever end is the upper one.  Depth, cursor, positions and register
come out the same, and the count does not matter. -/
theorem operations_on_selection (h : s.OnStack) (hd : 1 ≤ s.depth) (hsel : s.selection = some sel)
    (count : Nat) (register : Option String) :
    s.deleteItems count register = s.deleteRange sel.anchor sel.head register ∧
      s.yankItems count register = s.yankRange sel.anchor sel.head register := by
  have hpositions : s.affectedPositions count = s.rangePositions sel.anchor sel.head :=
    (h.affectedPositions_eq_iff hsel count).mpr hd
  have hsize : s.intendedSize count = (s.rangePositions sel.anchor sel.head).length := by
    rw [h.intendedSize_eq hsel, hpositions]
  constructor
  · rw [deleteItems, deleteRange, hpositions, hsize]
  · rw [yankItems, yankRange, hpositions]

/-- A whole stack, selected from its top down to the bottom. -/
theorem operations_on_whole_stack :
    let s : State :=
      { mode := .visual, position := 1, depth := 5, selection := some ⟨5, 1⟩ }
    (s.OnStack ∧ 1 ≤ s.depth ∧ s.selection = some ⟨5, 1⟩) ∧
      s.deleteItems maxCount (some "a") = s.deleteRange 5 1 (some "a") ∧
      s.yankItems maxCount (some "a") = s.yankRange 5 1 (some "a") := by
  intro s
  have h : s.OnStack := by
    refine ⟨by decide, by decide, ?_, by decide⟩
    intro sel hsel
    obtain rfl := Option.some.inj hsel
    decide
  exact ⟨⟨h, by decide, rfl⟩, operations_on_selection h (by decide) rfl maxCount (some "a")⟩

end State.OnStack

/-! ## 2. The anchor -/

/-- Visual mode is on, and what is selected runs from the anchor to the cursor. -/
structure State.Anchored (anchor : Nat) (s : State) : Prop where
  mode : s.mode = .visual
  selection : s.selection = some ⟨anchor, s.position⟩

namespace State.Anchored

variable {s t : State} {anchor : Nat}

/-- The anchor is seen in three fields. -/
theorem congr (h : s.Anchored anchor) (hm : t.mode = s.mode) (hp : t.position = s.position)
    (hsel : t.selection = s.selection) : t.Anchored anchor where
  mode := hm.trans h.mode
  selection := by rw [hsel, hp]; exact h.selection

theorem moveBy (h : s.Anchored anchor) (offset : Int) : (s.moveBy offset).Anchored anchor where
  mode := (moveBy_mode s offset).trans h.mode
  selection := moveBy_selection_of_visual offset h.mode h.selection

theorem jumpTo (h : s.Anchored anchor) (position : Int) :
    (s.jumpTo position).Anchored anchor := by
  have hjump : s.jumpTo position = s.extendTo position := by simp only [State.jumpTo, h.mode]
  rw [hjump]
  exact h.moveBy _

/-- What is selected, in ascending order.  A count makes no difference. -/
theorem affectedPositions (h : s.Anchored anchor) (count : Nat) :
    s.affectedPositions count
      = positionsBetween (min anchor s.position) (max anchor s.position) := by
  simp only [State.affectedPositions, h.selection, Selection.low, Selection.high]

end State.Anchored

/-- **Actions of visual mode** keep the anchor, unless they leave the mode. -/
theorem Bound.keeps_anchor {i : Invocation} {run : Invocation → Reaction} {anchor : Nat}
    (hb : Bound .visual run) (h : i.state.Anchored anchor)
    (hstays : ((run i).after i.state).mode = .visual) :
    ((run i).after i.state).Anchored anchor := by
  cases hb with
  | moveDown _ => exact h.moveBy _
  | moveUp _ => exact h.moveBy _
  | gotoPosition _ => exact h.jumpTo _
  | gotoBottom _ => exact h.jumpTo _
  | gotoTop _ =>
    unfold Action.gotoTop
    split
    · exact h.jumpTo _
    · exact h.jumpTo _
  | delete _ =>
    rw [Action.delete, Action.finish_after] at hstays
    exact absurd hstays (by simp [Action.landIn])
  | yank _ =>
    rw [Action.yank, Action.finish_after] at hstays
    exact absurd hstays (by simp [Action.landIn])
  | change _ =>
    rw [Action.change, Action.finish_after] at hstays
    exact absurd hstays (by simp [Action.landIn])
  | escape => exact absurd hstays (by simp [Action.escape, Reaction.move, Reaction.after])

/-- **Every step keeps the anchor**, unless it leaves visual mode. -/
theorem State.Anchored.react {s : State} {anchor : Nat} (h : s.Anchored anchor)
    (settings : Settings) (input : Input)
    (hstays : (s.react .default settings input).1.mode = .visual) :
    (s.react .default settings input).1.Anchored anchor := by
  rcases s.react_default settings input with ⟨r, hb, heq⟩ | ⟨_, _, _, heq⟩ | ⟨hm, -⟩
  · rw [h.mode] at hb
    rw [heq, execute_mode] at hstays
    rw [heq]
    have hafter : ((r.reaction s settings).after s).Anchored anchor :=
      @Bound.keeps_anchor (r.invocation s settings) _ _ hb h hstays
    exact hafter.congr execute_mode execute_position execute_selection
  · rw [heq]
    exact h.congr rfl rfl rfl
  · exact absurd (h.mode.symm.trans hm) (by decide)

/-! ## 3. As long as visual mode is on -/

namespace Engine

variable {η : Type} {e : Engine η} {ops : List Operation} {anchor : Nat}

/-- The operation is the report of a depth. -/
def Operation.reportsDepth : Operation → Bool
  | .setDepth _ => true
  | _ => false

/-- Visual mode is on before, between and after the operations, and no depth is reported. -/
def StaysVisual : Engine η → List Operation → Prop
  | e, [] => e.state.mode = .visual
  | e, op :: rest =>
    e.state.mode = .visual ∧ op.reportsDepth = false ∧ (e.perform op).1.StaysVisual rest

instance decidableStaysVisual :
    (e : Engine η) → (ops : List Operation) → Decidable (e.StaysVisual ops)
  | e, [] => inferInstanceAs (Decidable (e.state.mode = .visual))
  | e, op :: rest =>
    have := decidableStaysVisual (e.perform op).1 rest
    inferInstanceAs (Decidable (_ ∧ _ ∧ _))

theorem StaysVisual.mode (h : e.StaysVisual ops) : e.state.mode = .visual := by
  cases ops with
  | nil => exact h
  | cons op rest => exact h.1

/-- One operation keeps the anchor. -/
theorem perform_anchored (hk : e.keymaps = .default) (h : e.state.Anchored anchor)
    {op : Operation} (hop : op.reportsDepth = false)
    (hstays : (e.perform op).1.state.mode = .visual) :
    (e.perform op).1.state.Anchored anchor := by
  cases op with
  | event input context =>
    rw [perform, handleEvent_state, hk] at hstays ⊢
    split
    · rename_i htakes
      rw [if_pos htakes] at hstays
      exact h.react e.settings input hstays
    · exact h
  | submitLine line => exact absurd hstays (by simp [perform, Engine.submitLine, State.afterLine])
  | setDepth depth => exact absurd hop (by simp [Operation.reportsDepth])
  | setPendingCount count => exact h.congr rfl rfl rfl
  | storeRegister name items => exact h.congr rfl rfl rfl

/-- **The anchor stays** as long as visual mode is on. -/
theorem StaysVisual.run_anchored (hk : e.keymaps = .default) (hstays : e.StaysVisual ops)
    (h : e.state.Anchored anchor) : (e.run ops).state.Anchored anchor := by
  induction ops generalizing e with
  | nil => exact h
  | cons op rest ih =>
    obtain ⟨-, hop, hrest⟩ := hstays
    exact ih ((e.perform_keymaps op).trans hk) hrest (perform_anchored hk h hop hrest.mode)

end Engine

/-! ## 4. Operators on a selection -/

/-- The action is an operator on items that ends a selection: without a range of its own it asks
its host for something to be done with what its count affects, and whatever it does, nothing is
selected afterwards and normal mode is on. -/
structure Action.Concludes (run : Invocation → Reaction) (command : List Nat → String → Command) :
    Prop where
  counted : ∀ (i : Invocation) (n : Nat), i.operand = some (.count n) →
    i.state.affectedPositions i.times ≠ [] →
    (run i).command = some (command (i.state.affectedPositions i.times)
      (State.targetRegister i.register))
  mode : ∀ i : Invocation, ((run i).after i.state).mode = .normal
  selection : ∀ i : Invocation, ((run i).after i.state).selection = none

theorem Action.delete_concludes : Concludes delete .deleteItems where
  counted i n hi hne := by
    simp only [delete, hi]
    exact finish_of_ne hne
  mode i := by rw [delete, finish_after]; rfl
  selection i := by
    rw [delete, finish_after]
    cases i.operand with
    | none => rfl
    | some operand => cases operand <;> rfl

theorem Action.yank_concludes : Concludes yank .yankItems where
  counted i n hi hne := by
    simp only [yank, hi]
    exact finish_of_ne hne
  mode i := by rw [yank, finish_after]; rfl
  selection i := by
    rw [yank, finish_after]
    cases i.operand with
    | none => rfl
    | some operand => cases operand <;> rfl

/-- **What an operator without a register does to a selection.** -/
theorem State.Anchored.execute {s : State} {anchor n : Nat} (h : s.Anchored anchor)
    (hbuffer : s.buffer = "") (settings : Settings) {r : Resolved}
    {command : List Nat → String → Command} (ha : Action.Concludes r.action.run command)
    (hoperand : r.phrase.map Phrase.operand = some (.count n)) (hregister : r.register = none) :
    (s.execute settings r).2 = some (command
        (positionsBetween (min anchor s.position) (max anchor s.position)) unnamedRegister) ∧
      State.news s (s.execute settings r).1 = [.selectionChange none, .modeChange .normal] ∧
      (s.execute settings r).1.mode = .normal ∧
      (s.execute settings r).1.selection = none := by
  have hmode : (s.execute settings r).1.mode = .normal :=
    execute_mode.trans (ha.mode (r.invocation s settings))
  have hselection : (s.execute settings r).1.selection = none :=
    execute_selection.trans (ha.selection (r.invocation s settings))
  refine ⟨?_, ?_, hmode, hselection⟩
  · have hselected := h.affectedPositions (r.invocation s settings).times
    have hne : s.affectedPositions (r.invocation s settings).times ≠ [] := by
      rw [hselected]
      exact positionsBetween_ne_nil (by omega)
    have hcommand := ha.counted (r.invocation s settings) n hoperand hne
    have hunnamed : State.targetRegister (r.invocation s settings).register = unnamedRegister := by
      rw [Resolved.invocation, hregister]
      rfl
    rw [execute_snd, ← hselected, ← hunnamed]
    exact hcommand
  · unfold news
    rw [hmode, hselection, execute_buffer, h.selection, h.mode, hbuffer]
    rfl

/-- An operator that stands alone resolves to its action. -/
theorem Keymap.resolveText_bare {m : Keymap} {op : Char} {operand : Operand} {a : Action}
    (hop : (op, operand) ∈ Phrase.ownOperands)
    (hb : m.get? (String.singleton op) = some (.action a)) :
    m.resolveText [op] = .resolved ⟨a, String.ofList [op], String.ofList [op],
      some ⟨String.singleton op, operand⟩, none, none⟩ := by
  have hletter : op.isAlpha = true := Phrase.isAlpha_of_mem_ownOperands hop
  have hquote : [op].head? ≠ some '"' := by simpa using ne_of_isAlpha hletter (by decide)
  have haction : m.actionFor? ⟨String.singleton op, operand⟩ = some a := by
    simp only [actionFor?, hb]
  have hcount : phraseCount (String.ofList [op]) ⟨String.singleton op, operand⟩ = none := by
    rw [phraseCount, beginsWithDigit_ofList, Numeral.isDigit_eq_false_of_isAlpha hletter]
    rfl
  rw [resolveText_of_phrase hquote (.bare hop) haction, hcount]

namespace Engine

variable {η : Type} {setup : Setup} {e : Engine η} {ops : List Operation} {anchor : Nat}
  {op : Char} {operand : Operand} {a : Action} {command : List Nat → String → Command}

/-- The key of an operator that stands alone runs its action in visual mode, if nothing is half
typed. -/
theorem react_bare (hm : e.state.mode = .visual) (hkeys : e.state.keys = [])
    (hop : (op, operand) ∈ Phrase.ownOperands)
    (hb : Keymap.defaultVisual.get? (String.singleton op) = some (.action a)) :
    e.state.react .default e.settings (.key (.plain op))
      = e.state.execute e.settings ⟨a, String.ofList [op], String.ofList [op],
          some ⟨String.singleton op, operand⟩, none, none⟩ := by
  have hkeymap : Keymaps.default.forMode? e.state.mode = some .defaultVisual := by
    rw [hm]
    rfl
  have hgathers : e.state.gathers = true := State.gathers_iff.mpr (.inr hm)
  have hescape : (KeyPress.plain op).token ≠ escapeToken :=
    (isPlain_of_isAlpha (Phrase.isAlpha_of_mem_ownOperands hop)).continues.ne_escape
  have htoken : (e.state.gathers && (KeyPress.plain op).token != escapeToken) = true := by
    simp [hgathers, hescape]
  have hresolve := Keymap.resolveText_bare hop hb
  rw [Keymap.resolveText, List.map_singleton] at hresolve
  rw [State.react_eq_token hkeymap, Input.press, State.token, if_pos htoken, State.gather, hkeys,
    List.nil_append, KeyPress.token_plain]
  simp only [hresolve]

/-- **An operator is typed in visual mode**, with nothing half typed: it takes what is selected,
for the unnamed register, and the selection and the mode end. -/
theorem operator_on_selection (hk : e.keymaps = .default) (h : e.state.Anchored anchor)
    (hbuffer : e.state.buffer = "") (hkeys : e.state.keys = [])
    (hop : (op, .count 1) ∈ Phrase.ownOperands)
    (hb : Keymap.defaultVisual.get? (String.singleton op) = some (.action a))
    (ha : Action.Concludes a.run command) :
    (e.handleInput (.key (.plain op))).2.commands
        = [command (positionsBetween (min anchor e.state.position) (max anchor e.state.position))
            unnamedRegister, .selectionChange none, .modeChange .normal] ∧
      (e.handleInput (.key (.plain op))).1.state.mode = .normal ∧
      (e.handleInput (.key (.plain op))).1.state.selection = none := by
  have htakes : e.state.takes .stack (Input.key (.plain op)).press = true :=
    State.takes_of_isAlpha (.inr h.mode) (Phrase.isAlpha_of_mem_ownOperands hop)
  obtain ⟨hcommand, hnews, hmode, hselection⟩ :=
    h.execute hbuffer e.settings (r := ⟨a, String.ofList [op], String.ofList [op],
      some ⟨String.singleton op, .count 1⟩, none, none⟩) ha rfl rfl
  rw [handleInput, handleEvent_state, handleEvent_commands, if_pos htakes, if_pos htakes, hk,
    State.step, react_bare h.mode hkeys hop hb]
  refine ⟨?_, hmode, hselection⟩
  simp only [hcommand, hnews, Option.toList_some, List.singleton_append]

/-! ## 5. From the first key to the last -/

/-- With `v` a selection begins at the cursor. -/
theorem Idle.run_visual (h : e.Idle) :
    (e.run (typing ['v'])).state.Anchored e.state.position := by
  obtain ⟨r, hcompletes, hcounts⟩ :
      ∃ r, Keymap.defaultNormal.Completes (([] : List Char).map String.singleton ++ ["v"]) r ∧
        r.Counts [] ["v"] none Action.visualMode :=
    Keymap.completes_key (a := ⟨"visual_mode", Action.visualMode⟩) rfl (by decide) rfl
  have hcontinues : ∀ press ∈ [KeyPress.plain 'v'], press.Continues := by
    simpa using (isPlain_of_isAlpha (c := 'v') rfl).continues
  obtain ⟨hstate, -⟩ := h.run_completed hcontinues hcompletes
  have hrun : ((r.reaction (e.state.holdingKeys []) e.settings).after
      (e.state.holdingKeys [])).Anchored e.state.position := by
    rw [Resolved.reaction, hcounts.run]
    exact ⟨rfl, rfl⟩
  rw [← pressing_plain]
  refine State.Anchored.congr hrun ?_ ?_ ?_
  · exact (congrArg State.mode hstate).trans State.execute_mode
  · exact (congrArg State.position hstate).trans State.execute_position
  · exact (congrArg State.selection hstate).trans State.execute_selection

/-- To delete and to copy: the key, and what it asks the host for. -/
def selectionOperators : List (Char × (List Nat → String → Command)) :=
  [('d', .deleteItems), ('y', .yankItems)]

/-- **The anchor of a selection is stable.**  An engine with the default keymaps waits for a
command in normal mode, and a selection is begun with `v`.  Then, whatever the host hands to the
engine, let visual mode stay on all the time and no depth be reported.  What is selected runs
from where the cursor was at the beginning to where it is now; and if nothing is half typed, an
operator takes exactly the positions between the two, in ascending order, whatever count was set,
and ends the selection and the mode. -/
theorem Waits.selection_anchored (h : e.Waits setup)
    (hstays : (e.run (typing ['v'])).StaysVisual ops) :
    let d := e.run (typing ['v'] ++ ops)
    d.state.selection = some ⟨e.state.position, d.state.position⟩ ∧
      (d.state.buffer = "" → ∀ op command, (op, command) ∈ selectionOperators →
        (d.handleInput (.key (.plain op))).2.commands
            = [command (positionsBetween (min e.state.position d.state.position)
                (max e.state.position d.state.position)) unnamedRegister,
              .selectionChange none, .modeChange .normal] ∧
          (d.handleInput (.key (.plain op))).1.state.mode = .normal ∧
          (d.handleInput (.key (.plain op))).1.state.selection = none) := by
  intro d
  have hreachable : d.Reachable setup := h.reachable.run _
  have hk : d.keymaps = .default := hreachable.keymaps.trans h.keymaps
  have hanchored : d.state.Anchored e.state.position := by
    have hbegun : (e.run (typing ['v'])).keymaps = .default :=
      (e.run_keymaps _).trans h.idle.keymaps
    have hrun := hstays.run_anchored hbegun h.idle.run_visual
    rwa [← run_append] at hrun
  refine ⟨hanchored.selection, ?_⟩
  intro hbuffer op command hop
  have hkeys : d.state.keys = [] := hreachable.gathered.keys_eq_nil hbuffer
  simp only [selectionOperators, List.mem_cons, List.not_mem_nil, or_false, Prod.mk.injEq] at hop
  rcases hop with ⟨rfl, rfl⟩ | ⟨rfl, rfl⟩
  · exact operator_on_selection (a := ⟨"delete", Action.delete⟩) hk hanchored hbuffer hkeys
      (by decide) rfl Action.delete_concludes
  · exact operator_on_selection (a := ⟨"yank", Action.yank⟩) hk hanchored hbuffer hkeys
      (by decide) rfl Action.yank_concludes

/-- Upwards from position 4 and then down below it; a command that comes to nothing, a key for a
dialog, and a count that was set. -/
theorem Waits.selection_anchored_across :
    let e : Engine Unit := (Setup.start { depth := 5 }).run (typing ['j', 'j', 'j'])
    let ops : List Operation := typing ['5', 'g', '2', 'k', '"', 'a', 'z']
      ++ [.event (.key (.plain 'j')) .dialog, .setPendingCount (some 3)]
    let d := e.run (typing ['v'] ++ ops)
    ((e.Waits { depth := 5 } ∧ (e.run (typing ['v'])).StaysVisual ops) ∧
        e.state.position = 4 ∧ d.state.position = 3 ∧ d.state.buffer = "" ∧
        d.state.pendingCount = some 3) ∧
      d.state.selection = some ⟨e.state.position, d.state.position⟩ ∧
      (d.state.buffer = "" → ∀ op command, (op, command) ∈ selectionOperators →
        (d.handleInput (.key (.plain op))).2.commands
            = [command (positionsBetween (min e.state.position d.state.position)
                (max e.state.position d.state.position)) unnamedRegister,
              .selectionChange none, .modeChange .normal] ∧
          (d.handleInput (.key (.plain op))).1.state.mode = .normal ∧
          (d.handleInput (.key (.plain op))).1.state.selection = none) := by
  intro e ops d
  have h : e.Waits { depth := 5 } :=
    ⟨rfl, Reachable.start.run _, by decide +kernel, by decide +kernel⟩
  have hstays : (e.run (typing ['v'])).StaysVisual ops := by decide +kernel
  exact ⟨⟨⟨h, hstays⟩, by decide +kernel⟩, selection_anchored h hstays⟩

end Engine

end ModalStack
