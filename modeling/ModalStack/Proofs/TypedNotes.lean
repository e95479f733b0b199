/-
# Notes that are opened and typed

A new note goes through three hands.  The engine takes `o` or `O` and asks for an item to be opened
next to the cursor; the application puts in an empty one, remembers its index and reports the new
depth.  The characters of the note are left to the application, since insert mode takes nothing but
the escape, and go to the end of the item at the index that it remembered.  The escape is the
engine's again, and the news of normal mode end the editing.

The index is computed twice, once for putting the item in and once for remembering it, the second
time when the list has grown already.  Both come to the same (`NoteApp.openedIndex`), on an empty
stack and at either end too, so the characters go to the new note and to no other
(`NoteApp.Typing`).  Everything else is as it was all the while, and the cursor does not move
although the depth is reported: it was in bounds on a shorter stack.
-/
import ModalStack.Proofs.Escaping
import ModalStack.Proofs.NotePresses

namespace ModalStack

/-! ## 1. An item among others, and the keys that come to it -/

/-- Changing the item that was put in is putting in the changed one. -/
theorem modify_insertIdx {α : Type} (f : α → α) (a : α) (l : List α) (k : Nat) :
    (l.insertIdx k a).modify k f = l.insertIdx k (f a) := by
  induction l generalizing k with
  | nil =>
    cases k with
    | zero => rfl
    | succ k => rfl
  | cons x rest ih =>
    cases k with
    | zero => rfl
    | succ k =>
      rw [List.insertIdx_succ_cons, List.insertIdx_succ_cons, List.modify_succ_cons, ih]

/-- A block of one item is an item, put in at the end if the list is too short. -/
theorem NoteStack.insertBlock_singleton (items : List String) (k : Nat) (item : String) :
    insertBlock items k [item] = items.insertIdx (min k items.length) item := by
  rw [← insertBlock_min, insertBlock, insertIdx_eq (Nat.min_le_right _ _), List.append_assoc]
  rfl

/-- A character is typed at the end of a text. -/
theorem typedText_plain {c : Char} (hc : isControl c = false) (text : List Char) :
    NoteApp.typedText (String.ofList text) (.plain c) = String.ofList (text ++ [c]) := by
  have hprintable : (KeyPress.plain c).printable = some c := by
    have hleft : ((KeyPress.plain c).mods.isChord || isControl c) = false := by rw [hc]; rfl
    exact if_neg (by rw [hleft]; decide)
  have hcode : (KeyPress.plain c).code ≠ .backspace := by simp [KeyPress.plain]
  rw [NoteApp.typedText, NoteApp.typed, if_neg hcode, hprintable, String.toList_ofList]

/-- Insert mode leaves characters to the host. -/
theorem State.takes_plain_of_insert {s : State} (hmode : s.mode = .insert) (c : Char) :
    s.takes .stack (.plain c) = false := by
  have hcategory : (KeyPress.plain c).category = charCategory c :=
    KeyPress.category_of_char rfl rfl
  simp [State.takes, hmode, hcategory, (charCategory_stays c).1]

/-- The escape leads the engine from insert mode back to normal mode, and it asks for nothing. -/
theorem Engine.run_escape {η : Type} {e : Engine η} (hk : e.keymaps = .default)
    (hmode : e.state.mode = .insert) :
    (e.run (pressing [{ code := .escape }])).state.Settled ∧
      (e.run (pressing [{ code := .escape }])).state.position = e.state.position ∧
      (e.run (pressing [{ code := .escape }])).state.registers = e.state.registers ∧
      e.asked (pressing [{ code := .escape }]) = [] := by
  have hnot : e.state.mode ≠ .search := by
    rw [hmode]
    decide
  have hplain : (Input.key { code := .escape }).press.isPlainEscape = true := rfl
  obtain ⟨hstate, hasked⟩ := event_taken hk
    (State.takes_escape rfl : e.state.takes .stack (Input.key { code := .escape }).press = true)
  have hsettled : (e.state.react .default e.settings (.key { code := .escape })).1.Settled :=
    State.settled_of_plain hnot hplain
  rw [← hstate] at hsettled
  rw [State.react_of_plain hnot hplain] at hstate hasked
  rw [State.execute_fst] at hstate
  exact ⟨hsettled, (congrArg State.position hstate).trans rfl,
    (congrArg State.registers hstate).trans rfl, hasked⟩

namespace NoteApp

open Engine (pressing)

variable {app app' : NoteApp} {index : Nat} {text cs : List Char} {c : Char}

/-! ## 2. A note that is being typed -/

/-- A note is being typed: it was put in among the notes of `app` at an index, this is its text so
far, and everything else that concerns notes is as it was in `app`. -/
structure Typing (app app' : NoteApp) (index : Nat) (text : List Char) : Prop where
  inStep : app'.InStep
  mode : app'.engine.state.mode = .insert
  editing : app'.editing = some index
  items : app'.stack.items = app.stack.items.insertIdx index (String.ofList text)
  registers : app'.stack.registers = app.stack.registers
  held : app'.engine.state.registers = app.engine.state.registers
  position : app'.engine.state.position = app.engine.state.position
  workspaces : app.SameWorkspaces app'

/-- The key that opens a note above the cursor, or below. -/
def openKey (above : Bool) : Char := if above then 'O' else 'o'

/-- The index at which it opens one. -/
def openedIndex (app : NoteApp) (above : Bool) : Nat :=
  if above then min app.engine.state.position app.stack.items.length
  else app.engine.state.position - 1

theorem openKey_counted (above : Bool) :
    CountedCommand [.plain (openKey above)] (Action.openItem above) := by
  cases above with
  | true => exact .key (List.mem_of_getElem? (i := 12) rfl)
  | false => exact .key (List.mem_of_getElem? (i := 11) rfl)

/-- The index that a command asks for, as far as there are items. -/
theorem Waits.openedIndex_eq (h : app.Waits) (above : Bool) :
    min (NoteStack.openIndex app.engine.state.position above) app.stack.items.length
      = app.openedIndex above := by
  have hdepth : app.engine.state.depth = app.stack.items.length := h.inStep.depth rfl
  have hle : app.engine.state.position ≤ max 1 app.engine.state.depth := h.inStep.bounded.le_depth
  cases above with
  | true => rfl
  | false =>
    simp only [NoteStack.openIndex, openedIndex, Bool.false_eq_true, if_false]
    omega

theorem Waits.openedIndex_le (h : app.Waits) (above : Bool) :
    app.openedIndex above ≤ app.stack.items.length := by
  rw [← h.openedIndex_eq above]
  exact Nat.min_le_right _ _

/-- An empty item comes in at that index. -/
theorem Waits.apply_open (h : app.Waits) (above : Bool) :
    (app.stack.apply (.openItem app.engine.state.position above)).items
      = app.stack.items.insertIdx (app.openedIndex above) "" := by
  rw [← h.openedIndex_eq above]
  exact NoteStack.insertBlock_singleton _ _ _

/-- The engine goes to insert mode and asks for an item to be opened. -/
theorem run_open {η : Type} {e : Engine η} (h : e.Idle) (above : Bool) :
    (e.run (pressing [.plain (openKey above)])).state.mode = .insert ∧
      (e.run (pressing [.plain (openKey above)])).state.position = e.state.position ∧
      (e.run (pressing [.plain (openKey above)])).state.registers = e.state.registers ∧
      e.asked (pressing [.plain (openKey above)]) = [.openItem e.state.position above] := by
  obtain ⟨i, ts, hi, -, ⟨_, _, _, hstate⟩, hasked⟩ :=
    h.run_counted (openKey_counted above) (rfl : [].all Char.isDigit = true)
  have hopened : (Action.openItem above i).after i.state
      = { i.state with mode := .insert, selection := none } := rfl
  have hsent : (Action.openItem above i).command.toList = [.openItem i.state.position above] := rfl
  rw [hopened, hi] at hstate
  rw [hsent, hi] at hasked
  exact ⟨congrArg State.mode hstate, (congrArg State.position hstate).trans rfl,
    (congrArg State.registers hstate).trans rfl, hasked⟩

/-- **A note is opened**, with no text yet. -/
theorem Waits.opens (h : app.Waits) (above : Bool) :
    app.Typing (app.handle (.plain (openKey above))) (app.openedIndex above) [] := by
  have hnot : app.engine.state.mode ≠ .command := by
    rw [h.idle.mode]
    decide
  have htakes : app.engine.state.takes .stack (.plain (openKey above)) = true := by
    refine State.takes_of_isAlpha (.inl h.idle.mode) ?_
    cases above with
    | true => decide
    | false => decide
  obtain ⟨hmode, hposition, hregisters, hsent⟩ := run_open h.idle above
  obtain ⟨hstack, hengine, hediting, hworkspaces⟩ :=
    h.inStep.took hnot (TerminalPress.toPress?_plain (openKey above)) htakes
  rw [hsent, List.foldl_cons, List.foldl_nil] at hstack hediting
  have hresizes : [Command.openItem app.engine.state.position above].any NoteStack.resizes = true :=
    rfl
  rw [hsent, if_pos hresizes] at hengine
  have hlength : (app.stack.apply (.openItem app.engine.state.position above)).items.length
      = app.stack.items.length + 1 := by
    rw [h.apply_open, List.length_insertIdx_of_le_length (h.openedIndex_le above)]
  refine ⟨(h.inStep.handle _).2, ?_, ?_, ?_, ?_, ?_, ?_, hworkspaces⟩
  · rw [hengine]
    exact hmode
  · -- the index that is remembered is cut at the end of the longer list, and means the same
    have hinsert : ¬ ((app.engine.run (pressing [.plain (openKey above)])).state.mode = .normal ∧
        app.engine.state.mode ≠ .normal) := by simp [hmode]
    rw [hediting, if_neg hinsert, ← h.openedIndex_eq above]
    simp only [carryOut, follow, hlength, Nat.add_sub_cancel]
  · rw [hstack]
    exact h.apply_open above
  · rw [hstack]
    rfl
  · rw [hengine]
    exact hregisters
  · have hclamp : ((app.engine.run (pressing [.plain (openKey above)])).setDepth
          (app.handle (.plain (openKey above))).stack.items.length).state.position
        = clamp app.engine.state.position (app.stack.items.length + 1) := by
      rw [← hposition, ← hlength, ← hstack]
      rfl
    have hdepth : app.engine.state.depth = app.stack.items.length := h.inStep.depth rfl
    have hle : app.engine.state.position ≤ max 1 app.engine.state.depth :=
      h.inStep.bounded.le_depth
    rw [hengine, hclamp]
    exact clamp_of_mem h.inStep.bounded.one_le (by omega)

/-! ## 3. Typing it, and leaving it -/

/-- **A character goes to the end of the note.** -/
theorem Typing.char (h : app.Typing app' index text) (hc : isControl c = false) :
    app.Typing (app'.handle (.plain c)) index (text ++ [c]) := by
  have hnot : app'.engine.state.mode ≠ .command := by
    rw [h.mode]
    decide
  have hleft : ¬ app'.engine.state.takes .stack (.plain c) = true := by
    rw [State.takes_plain_of_insert h.mode c]
    decide
  have hindex : app'.editedIndex = index := by
    rw [editedIndex, h.editing]
    rfl
  have htyped : app'.handle (.plain c) =
      { app' with
        stack := { app'.stack with
          items := app'.stack.items.modify index fun item => typedText item (.plain c) } } := by
    rw [handle_of_not_command hnot (TerminalPress.toPress?_plain c), if_neg hleft]
    simp only [typeKey, h.mode, hindex]
  have hinStep : (app'.handle (.plain c)).InStep := (h.inStep.handle (.plain c)).2
  rw [htyped] at hinStep ⊢
  refine ⟨hinStep, h.mode, h.editing, ?_, h.registers, h.held, h.position, ?_⟩
  · simp only [h.items, modify_insertIdx, typedText_plain hc]
  · exact ⟨h.workspaces.workspaces, h.workspaces.workspace⟩

/-- So do all characters of a text. -/
theorem Typing.chars (h : app.Typing app' index text) (hcs : ∀ c ∈ cs, isControl c = false) :
    app.Typing (app'.handleAll (cs.map .plain)) index (text ++ cs) := by
  induction cs generalizing app' text with
  | nil =>
    rw [List.append_nil]
    exact h
  | cons c rest ih =>
    obtain ⟨hc, hrest⟩ := List.forall_mem_cons.mp hcs
    have hnext := ih (h.char hc) hrest
    rw [List.append_assoc] at hnext
    exact hnext

/-- **The escape ends it** and leaves the note as it was typed. -/
theorem Typing.escaped (h : app.Typing app' index text) :
    (app'.handle .escape).stack = app'.stack ∧ (app'.handle .escape).editing = none ∧
      (app'.handle .escape).Waits ∧
      (app'.handle .escape).engine.state.registers = app'.engine.state.registers ∧
      (app'.handle .escape).engine.state.position = app'.engine.state.position ∧
      app'.SameWorkspaces (app'.handle .escape) := by
  have hnot : app'.engine.state.mode ≠ .command := by
    rw [h.mode]
    decide
  obtain ⟨hsettled, hposition, hregisters, hasked⟩ := Engine.run_escape h.inStep.keymaps h.mode
  obtain ⟨hstack, hengine, hediting, hworkspaces⟩ :=
    h.inStep.took hnot TerminalPress.toPress?_escape (State.takes_escape rfl)
  have hnone : ¬ ([] : List Command).any NoteStack.resizes = true := by decide
  rw [hasked, if_neg hnone] at hengine
  rw [hasked] at hstack hediting
  have hended : (app'.engine.run (pressing [{ code := .escape }])).state.mode = .normal ∧
      app'.engine.state.mode ≠ .normal := by simp [hsettled.mode, h.mode]
  rw [if_pos hended] at hediting
  refine ⟨hstack, hediting, ⟨(h.inStep.handle _).2, ⟨?_, ?_, ?_, ?_⟩, ?_⟩, ?_, ?_, hworkspaces⟩
  · rw [hengine, Engine.run_keymaps]
    exact h.inStep.keymaps
  · rw [hengine]
    exact hsettled.mode
  · rw [hengine]
    exact hsettled.buffer
  · rw [hengine]
    exact hsettled.keys
  · rw [hengine]
    exact hsettled.pendingCount
  · rw [hengine]
    exact hregisters
  · rw [hengine]
    exact hposition

/-- **Opening and typing a note touches that note only.**  In a state that the application reaches
from its start, let it be in normal mode with nothing half typed and no count set.  Let `o` be
typed, or `O`, then any text without control characters, and then the escape.  Then there is one
more note, with this text, below the cursor's note or above it, and the others are as they were in
their order.  So are the registers, the workspaces and the cursor; nothing is being edited, and the
application waits for the next command in normal mode. -/
theorem start_types_note (presses : List TerminalPress)
    (hmode : (start.handleAll presses).engine.state.mode = .normal)
    (hbuffer : (start.handleAll presses).engine.state.buffer = "")
    (hcount : (start.handleAll presses).engine.state.pendingCount = none)
    (above : Bool) {cs : List Char} (hcs : ∀ c ∈ cs, isControl c = false) :
    let app := start.handleAll presses
    let after := app.handleAll
      (.plain (if above then 'O' else 'o') :: cs.map .plain ++ [.escape])
    after.stack.items = app.stack.items.insertIdx
        (if above then min app.engine.state.position app.stack.items.length
          else app.engine.state.position - 1) (String.ofList cs) ∧
      after.stack.registers = app.stack.registers ∧
      after.engine.state.registers = app.engine.state.registers ∧
      app.SameWorkspaces after ∧
      after.engine.state.position = app.engine.state.position ∧
      after.engine.state.mode = .normal ∧ after.editing = none ∧ after.Waits := by
  intro app after
  have happ : app.Waits := start_waits presses hmode hbuffer hcount
  have htyped := (happ.opens above).chars hcs
  obtain ⟨hstack, hediting, hwaits, hregisters, hposition, hworkspaces⟩ := htyped.escaped
  have hafter : after = ((app.handle (.plain (openKey above))).handleAll (cs.map .plain)).handle
      .escape := by
    simp only [after, handleAll, List.cons_append, List.foldl_cons, List.foldl_append,
      List.foldl_nil]
    rfl
  rw [hafter]
  refine ⟨?_, ?_, ?_, htyped.workspaces.trans hworkspaces, ?_, hwaits.idle.mode, hediting, hwaits⟩
  · rw [hstack]
    exact htyped.items
  · rw [hstack]
    exact htyped.registers
  · rw [hregisters]
    exact htyped.held
  · rw [hposition]
    exact htyped.position

/-- In a new workspace there are no notes, and a first one is opened above the cursor. -/
theorem start_types_first_note :
    ∃ presses app, presses = typingLine ":nw b" ++ [enterPress] ∧ app = start.handleAll presses ∧
      (app.engine.state.mode = .normal ∧ app.engine.state.buffer = "" ∧
        app.engine.state.pendingCount = none) ∧
      (∀ c ∈ ['é', 't', 'é'], isControl c = false) ∧
      app.stack.items = [] ∧ app.engine.state.position = 1 ∧
      (app.handleAll (.plain 'O' :: ['é', 't', 'é'].map .plain ++ [.escape])).stack.items
        = [String.ofList ['é', 't', 'é']] := by
  have hmode : (start.handleAll (typingLine ":nw b" ++ [enterPress])).engine.state.mode
      = .normal := by
    decide +kernel
  have hbuffer : (start.handleAll (typingLine ":nw b" ++ [enterPress])).engine.state.buffer
      = "" := by
    decide +kernel
  have hcount : (start.handleAll (typingLine ":nw b" ++ [enterPress])).engine.state.pendingCount
      = none := by
    decide +kernel
  have hnone : (start.handleAll (typingLine ":nw b" ++ [enterPress])).stack.items = [] := by
    decide +kernel
  have hposition : (start.handleAll (typingLine ":nw b" ++ [enterPress])).engine.state.position
      = 1 := by
    decide +kernel
  have hall : ['é', 't', 'é'].all (!isControl ·) = true := by decide
  have hcs : ∀ c ∈ ['é', 't', 'é'], isControl c = false := fun c hc => by
    simpa using List.all_eq_true.mp hall c hc
  obtain ⟨hitems, -⟩ := start_types_note _ hmode hbuffer hcount true hcs
  rw [hnone, hposition] at hitems
  exact ⟨_, _, rfl, rfl, ⟨hmode, hbuffer, hcount⟩, hcs, hnone, hposition, hitems⟩

end NoteApp

end ModalStack
