/-
# Which notes are kept

The notes are those that are shown and those that were put away.  A submitted line that names
a workspace moves them about.  Here it is said which of them are lost on the way: the notes put
away under the name of the workspace that is shown, if the line leads to another one
(`NoteApp.lost`).  Everything else is kept, and nothing is kept twice
(`NoteApp.follow_notes`).

There are no such notes at the start, and switching away removes the entry of the workspace
that is switched to.  The one way to them is a line that names the workspace shown: it exchanges
what is shown with what is put away under the same name, and leaves the entry behind.  So no
note is ever lost unless such a line was submitted before (`NoteApp.start_notes_perm_iff`).
-/
import ModalStack.Proofs.NotesInStep
import ModalStack.Proofs.Origins

namespace ModalStack

open scoped List

/-! ## 1. Tables of lists -/

namespace Assoc

variable {κ α : Type} [DecidableEq κ] {key : κ} {l : List (κ × List α)}

/-- Writing a list adds its items, at the cost of those that were under the key. -/
theorem insert_perm (key : κ) (value : List α) (l : List (κ × List α)) :
    (insert key value l).flatMap Prod.snd ++ (l.lookup key).getD [] ~
      value ++ l.flatMap Prod.snd := by
  induction l with
  | nil => simp [insert]
  | cons e rest ih =>
    rw [lookup_cons]
    by_cases h : e.1 = key
    · simp only [insert, h, if_true, List.flatMap_cons, Option.getD_some, List.append_assoc]
      exact List.perm_append_comm.append_left value
    · simp only [insert, h, if_false, List.flatMap_cons]
      calc (e.2 ++ (insert key value rest).flatMap Prod.snd) ++ (rest.lookup key).getD []
          = e.2 ++ ((insert key value rest).flatMap Prod.snd ++ (rest.lookup key).getD []) :=
            List.append_assoc _ _ _
        _ ~ e.2 ++ (value ++ rest.flatMap Prod.snd) := ih.append_left e.2
        _ = (e.2 ++ value) ++ rest.flatMap Prod.snd := (List.append_assoc _ _ _).symm
        _ ~ (value ++ e.2) ++ rest.flatMap Prod.snd := List.perm_append_comm.append_right _
        _ = value ++ (e.2 ++ rest.flatMap Prod.snd) := List.append_assoc _ _ _

/-- Removing a key costs the items under it. -/
theorem erase_perm (h : (keys l).Nodup) :
    (erase key l).flatMap Prod.snd ++ (l.lookup key).getD [] ~ l.flatMap Prod.snd := by
  induction l with
  | nil => simp [erase]
  | cons e rest ih =>
    obtain ⟨hnotMem, hrest⟩ := List.nodup_cons.mp h
    rw [lookup_cons]
    by_cases hkey : e.1 = key
    · have hkept : ∀ e' ∈ rest, decide (e'.1 ≠ key) = true := by
        intro e' he'
        have hmem : e'.1 ∈ keys rest := List.mem_map_of_mem he'
        refine decide_eq_true ?_
        rintro heq
        rw [heq, ← hkey] at hmem
        exact hnotMem hmem
      have herase : erase key (e :: rest) = rest := by
        rw [erase, List.filter_cons_of_neg (by simp [hkey]), List.filter_eq_self]
        exact hkept
      simp only [herase, hkey, if_true, List.flatMap_cons, Option.getD_some]
      exact List.perm_append_comm
    · have herase : erase key (e :: rest) = e :: erase key rest := by simp [erase, hkey]
      simp only [herase, hkey, if_false, List.flatMap_cons, List.append_assoc]
      exact (ih hrest).append_left e.2

end Assoc

namespace Table

variable {κ α : Type} [DecidableEq κ]

/-- The items of all lists in a table. -/
def items (t : Table κ (List α)) : List α := t.entries.flatMap Prod.snd

theorem items_insert_perm (t : Table κ (List α)) (key : κ) (value : List α) :
    (t.insert key value).items ++ (t.get? key).getD [] ~ value ++ t.items :=
  Assoc.insert_perm key value t.entries

theorem items_erase_perm (t : Table κ (List α)) (key : κ) :
    (t.erase key).items ++ (t.get? key).getD [] ~ t.items :=
  Assoc.erase_perm t.nodup

end Table

/-- The command asks for this workspace to be shown. -/
def Command.Names (name : String) (c : Command) : Prop :=
  c = .switchWorkspace name ∨ c = .createWorkspace name

theorem Command.names_cases (c : Command) :
    (∃ name, c = .switchWorkspace name) ∨ (∃ name, c = .createWorkspace name) ∨
      ∀ name, ¬ c.Names name := by
  cases c with
  | switchWorkspace name => exact .inl ⟨name, rfl⟩
  | createWorkspace name => exact .inr (.inl ⟨name, rfl⟩)
  | _ => exact .inr (.inr fun _ h => by rcases h with h | h <;> exact absurd h (by simp))

theorem Command.FromKeys.unnamed {c : Command} (h : c.FromKeys) (name : String) :
    ¬ c.Names name := by
  rintro (rfl | rfl)
  · exact h
  · exact h

theorem Command.IsNews.unnamed {c : Command} (h : c.IsNews) (name : String) :
    ¬ c.Names name := by
  rintro (rfl | rfl)
  · exact h
  · exact h

namespace NoteApp

variable {app : NoteApp} {c : Command} {name : String}

/-! ## 2. Switching -/

/-- All notes: those shown, and those that were put away. -/
def notes (app : NoteApp) : List String := app.stack.items ++ app.workspaces.items

/-- The notes put away under the name of the workspace that is shown. -/
def shadowed (app : NoteApp) : List String := (app.workspaces.get? app.workspace).getD []

/-- The notes that following a command loses. -/
def lost (app : NoteApp) : Command → List String
  | .switchWorkspace name =>
    if name ≠ app.workspace ∧ app.workspaces.contains name then app.shadowed else []
  | .createWorkspace name => if name ≠ app.workspace then app.shadowed else []
  | _ => []

/-- **Switching moves notes**, and loses those that were put away under the name of the
workspace that is left. -/
theorem switchWorkspace_notes (app : NoteApp) (name : String) :
    (app.switchWorkspace name).notes ++ app.lost (.switchWorkspace name) ~ app.notes := by
  unfold switchWorkspace
  split
  · rename_i hnone
    have hlost : app.lost (.switchWorkspace name) = [] := by
      simp [lost, Table.contains, hnone]
    rw [hlost, List.append_nil]
    exact List.Perm.refl _
  · rename_i items hsome
    -- what is put away now, and what was put away under the name that is shown now
    have hinsert := (app.workspaces.erase name).items_insert_perm app.workspace app.stack.items
    have herase := app.workspaces.items_erase_perm name
    have hlost : app.lost (.switchWorkspace name)
        = ((app.workspaces.erase name).get? app.workspace).getD [] := by
      rw [Table.get?_erase]
      by_cases hself : name = app.workspace
      · simp [lost, hself]
      · simp [lost, shadowed, hself, Table.contains, hsome]
    rw [hsome, Option.getD_some] at herase
    rw [hlost]
    calc (items ++ ((app.workspaces.erase name).insert app.workspace app.stack.items).items)
          ++ ((app.workspaces.erase name).get? app.workspace).getD []
        = items ++ (((app.workspaces.erase name).insert app.workspace app.stack.items).items
            ++ ((app.workspaces.erase name).get? app.workspace).getD []) :=
          List.append_assoc _ _ _
      _ ~ items ++ (app.stack.items ++ (app.workspaces.erase name).items) :=
          hinsert.append_left items
      _ ~ (app.stack.items ++ (app.workspaces.erase name).items) ++ items :=
          List.perm_append_comm
      _ = app.stack.items ++ ((app.workspaces.erase name).items ++ items) :=
          List.append_assoc _ _ _
      _ ~ app.notes := herase.append_left app.stack.items

theorem addWorkspace_notes (app : NoteApp) (name : String) :
    (app.addWorkspace name).notes ~ app.notes := by
  unfold addWorkspace
  split
  · exact List.Perm.refl _
  · rename_i hnew
    have hnone : app.workspaces.get? name = none := by
      simpa [Table.contains] using hnew
    have hinsert := app.workspaces.items_insert_perm name []
    rw [hnone, Option.getD_none, List.append_nil, List.nil_append] at hinsert
    exact hinsert.append_left app.stack.items

theorem addWorkspace_contains (app : NoteApp) (name : String) :
    (app.addWorkspace name).workspaces.contains name = true := by
  unfold addWorkspace
  split
  · assumption
  · simp [Table.contains, Table.get?_insert]

theorem addWorkspace_workspace (app : NoteApp) (name : String) :
    (app.addWorkspace name).workspace = app.workspace := by
  unfold addWorkspace
  split
  · rfl
  · rfl

theorem addWorkspace_shadowed (hne : name ≠ app.workspace) :
    (app.addWorkspace name).shadowed = app.shadowed := by
  unfold addWorkspace
  split
  · rfl
  · simp [shadowed, Table.get?_insert, hne]

theorem createWorkspace_lost (app : NoteApp) (name : String) :
    (app.addWorkspace name).lost (.switchWorkspace name) = app.lost (.createWorkspace name) := by
  simp only [lost, addWorkspace_contains, addWorkspace_workspace, and_true]
  split
  · rename_i hne
    exact addWorkspace_shadowed hne
  · rfl

/-- Other commands leave the workspaces alone. -/
theorem follow_unnamed (h : ∀ name, ¬ c.Names name) :
    (app.follow c).stack = app.stack ∧ (app.follow c).workspaces = app.workspaces ∧
      (app.follow c).workspace = app.workspace := by
  cases c with
  | switchWorkspace name => exact absurd (.inl rfl) (h name)
  | createWorkspace name => exact absurd (.inr rfl) (h name)
  | modeChange mode =>
    cases mode with
    | _ => exact ⟨rfl, rfl, rfl⟩
  | _ => exact ⟨rfl, rfl, rfl⟩

theorem lost_unnamed (h : ∀ name, ¬ c.Names name) : app.lost c = [] := by
  unfold lost
  split
  · exact absurd (.inl rfl) (h _)
  · exact absurd (.inr rfl) (h _)
  · rfl

/-- **What following a command does to the notes.** -/
theorem follow_notes (app : NoteApp) (c : Command) :
    (app.follow c).notes ++ app.lost c ~ app.notes := by
  rcases c.names_cases with ⟨name, rfl⟩ | ⟨name, rfl⟩ | hc
  · exact app.switchWorkspace_notes name
  · rw [← createWorkspace_lost]
    exact ((app.addWorkspace name).switchWorkspace_notes name).trans (app.addWorkspace_notes name)
  · obtain ⟨hstack, hworkspaces, -⟩ := app.follow_unnamed hc
    rw [lost_unnamed hc, List.append_nil, notes, hstack, hworkspaces]
    exact List.Perm.refl _

/-! ## 3. What is put away under the name that is shown -/

theorem switchWorkspace_shadowed (h : app.shadowed = []) (hne : name ≠ app.workspace) :
    (app.switchWorkspace name).shadowed = [] := by
  unfold switchWorkspace
  split
  · exact h
  · -- the entry of the workspace switched to was removed
    have hne' : app.workspace ≠ name := fun heq => hne heq.symm
    simp [shadowed, Table.get?_insert, Table.get?_erase, hne']

/-- A command that does not ask for the workspace shown puts nothing away under its name. -/
theorem follow_shadowed (h : app.shadowed = []) (hc : ¬ c.Names app.workspace) :
    (app.follow c).shadowed = [] := by
  rcases c.names_cases with ⟨name, rfl⟩ | ⟨name, rfl⟩ | hunnamed
  · refine switchWorkspace_shadowed h ?_
    rintro rfl
    exact hc (.inl rfl)
  · have hne : name ≠ app.workspace := by
      rintro rfl
      exact hc (.inr rfl)
    refine switchWorkspace_shadowed ?_ ?_
    · rw [addWorkspace_shadowed hne]
      exact h
    · rw [addWorkspace_workspace]
      exact hne
  · obtain ⟨-, hworkspaces, hworkspace⟩ := app.follow_unnamed hunnamed
    rw [shadowed, hworkspaces, hworkspace]
    exact h

/-- Where nothing is put away under the name that is shown, nothing can be lost. -/
theorem lost_eq_nil (h : app.shadowed = []) (c : Command) : app.lost c = [] := by
  unfold lost
  split
  · rw [h, ite_self]
  · rw [h, ite_self]
  · rfl

/-! ## 4. Keys -/

/-- What the line asks for that this press submits. -/
def submitted? (app : NoteApp) (press : TerminalPress) : Option Command :=
  match press.toPress? with
  | some press =>
    if app.engine.state.mode = .command ∧ press.code = .enter then
      CommandLine.parse app.commandLine
    else none
  | none => none

/-- The line that quits names no workspace. -/
theorem parse_of_asksToQuit {line : String} (h : asksToQuit line = true) :
    CommandLine.parse line = none := by
  have hline : Text.trim line.toList = [':', 'q'] := by simpa [asksToQuit] using h
  rw [CommandLine.parse, hline]
  decide +kernel

/-- The workspaces are as they were. -/
structure SameWorkspaces (app app' : NoteApp) : Prop where
  workspaces : app'.workspaces = app.workspaces
  workspace : app'.workspace = app.workspace

namespace SameWorkspaces

variable {app' app'' : NoteApp}

theorem trans (h : app.SameWorkspaces app') (h' : app'.SameWorkspaces app'') :
    app.SameWorkspaces app'' :=
  ⟨h'.workspaces.trans h.workspaces, h'.workspace.trans h.workspace⟩

theorem shadowed (h : app.SameWorkspaces app') : app'.shadowed = app.shadowed := by
  rw [NoteApp.shadowed, h.workspaces, h.workspace]
  rfl

end SameWorkspaces

theorem carryOutAll_unnamed {commands : List Command}
    (h : ∀ c ∈ commands, ∀ name, ¬ c.Names name) :
    app.SameWorkspaces (app.carryOutAll commands) := by
  have hfold : app.SameWorkspaces (commands.foldl carryOut app) := by
    induction commands generalizing app with
    | nil => exact ⟨rfl, rfl⟩
    | cons c rest ih =>
      obtain ⟨-, hworkspaces, hworkspace⟩ :=
        { app with stack := app.stack.apply c }.follow_unnamed (h c List.mem_cons_self)
      have hfirst : app.SameWorkspaces (app.carryOut c) := ⟨hworkspaces, hworkspace⟩
      exact hfirst.trans (ih fun d hd => h d (List.mem_cons_of_mem c hd))
  unfold carryOutAll
  split
  · exact ⟨hfold.workspaces, hfold.workspace⟩
  · exact hfold

theorem afterReport_unnamed {result : Engine NoteListener × Report NoteListener}
    (h : ∀ c ∈ result.2.commands, ∀ name, ¬ c.Names name) :
    app.SameWorkspaces (app.afterReport result) := by
  unfold afterReport
  obtain ⟨status, heq⟩ := hear_eq { app with engine := result.1 } result.2.deliveries
  rw [heq]
  exact ⟨(carryOutAll_unnamed h).workspaces, (carryOutAll_unnamed h).workspace⟩

/-- **A submitted line is followed**, and the rest does not concern the notes. -/
theorem handle_submitted {press : TerminalPress} (hc : app.submitted? press = some c) :
    ∃ engine status, app.handle press =
      { ({ app with commandLine := "", engine := engine, status := status } : NoteApp).follow c
        with editing := none } := by
  unfold submitted? at hc
  split at hc
  · rename_i known hknown
    split at hc
    · rename_i hsubmit
      have hquit : asksToQuit app.commandLine = false := by
        rw [← Bool.not_eq_true]
        intro hquit
        rw [parse_of_asksToQuit hquit] at hc
        exact absurd hc (by simp)
      have hcommands : (app.engine.submitLine app.commandLine).2.commands
          = [c, .modeChange .normal] := by
        simp [Engine.submitLine, Engine.sent, hc, hsubmit.1]
      have hresizes : [c, .modeChange .normal].any NoteStack.resizes = false := by
        rcases CommandLine.parse_eq_some hc with ⟨_, rfl⟩ | ⟨_, rfl⟩ | rfl
        all_goals rfl
      have hcarry : ∀ app' : NoteApp, app'.carryOut c = app'.follow c := by
        intro app'
        rcases CommandLine.parse_eq_some hc with ⟨_, rfl⟩ | ⟨_, rfl⟩ | rfl
        all_goals rfl
      obtain ⟨status, hhear⟩ :=
        hear_eq { app with commandLine := "", engine := (app.engine.submitLine app.commandLine).1 }
          (app.engine.submitLine app.commandLine).2.deliveries
      refine ⟨(app.engine.submitLine app.commandLine).1, status, ?_⟩
      simp only [handle, hknown, handlePress, if_pos hsubmit, submit, hquit, afterReport, hhear,
        hcommands, carryOutAll, hresizes, List.foldl_cons, List.foldl_nil, hcarry]
      rfl
    · exact absurd hc (by simp)
  · exact absurd hc (by simp)

/-- A line that names no workspace, and quitting. -/
theorem submit_unnamed (h : CommandLine.parse app.commandLine = none) :
    app.SameWorkspaces app.submit := by
  unfold submit
  simp only
  split
  · exact ⟨rfl, rfl⟩
  · have hcommands : ∀ d ∈ (app.engine.submitLine app.commandLine).2.commands,
        ∀ name, ¬ d.Names name := by
      intro d hd name
      simp only [Engine.submitLine, Engine.sent, h, Option.toList_none, List.nil_append] at hd
      split at hd
      · obtain rfl := List.mem_singleton.mp hd
        have hnews : (Command.modeChange .normal).IsNews := trivial
        exact hnews.unnamed name
      · exact absurd hd (by simp)
    exact ⟨(afterReport_unnamed hcommands).workspaces, (afterReport_unnamed hcommands).workspace⟩

/-- Keys that the engine takes send nothing about workspaces, and the others are typed. -/
theorem handleInput_unnamed (h : app.InStep) (press : KeyPress) :
    ∀ c ∈ (app.engine.handleInput (.key press)).2.commands, ∀ name, ¬ c.Names name := by
  intro c hc name
  have hmem : c ∈ (app.engine.state.step .default app.engine.settings (.key press)).2 := by
    unfold Engine.handleInput Engine.handleEvent at hc
    split at hc
    · rw [← h.keymaps]
      exact hc
    · exact absurd hc (by simp)
  rcases State.fromKeys_or_isNews_of_mem hmem with hkeys | hnews
  · exact hkeys.unnamed name
  · exact hnews.unnamed name

/-- **Only a submitted line changes the workspaces.** -/
theorem handle_unsubmitted (h : app.InStep) {press : TerminalPress}
    (hc : app.submitted? press = none) : app.SameWorkspaces (app.handle press) := by
  unfold submitted? at hc
  unfold handle
  cases hpress : press.toPress? with
  | none => exact ⟨rfl, rfl⟩
  | some known =>
    rw [hpress] at hc
    simp only at hc ⊢
    unfold handlePress
    split
    · rename_i hsubmit
      rw [if_pos hsubmit] at hc
      exact submit_unnamed hc
    · simp only
      split
      · exact afterReport_unnamed (handleInput_unnamed h known)
      · unfold typeKey
        split
        · exact ⟨rfl, rfl⟩
        · exact ⟨rfl, rfl⟩
        · exact ⟨rfl, rfl⟩

/-- **What a press that submits a line does to the notes.** -/
theorem handle_notes {press : TerminalPress} (hc : app.submitted? press = some c) :
    (app.handle press).notes ++ app.lost c ~ app.notes := by
  obtain ⟨engine, status, heq⟩ := handle_submitted hc
  rw [heq]
  exact { app with commandLine := "", engine := engine, status := status }.follow_notes c

/-- Nothing is put away under the name that is shown, unless a line asks for it. -/
theorem handle_shadowed (h : app.InStep) (hs : app.shadowed = []) {press : TerminalPress}
    (hc : ∀ c ∈ app.submitted? press, ¬ c.Names app.workspace) :
    (app.handle press).shadowed = [] := by
  cases hsubmitted : app.submitted? press with
  | none =>
    rw [(handle_unsubmitted h hsubmitted).shadowed]
    exact hs
  | some c =>
    obtain ⟨engine, status, heq⟩ := handle_submitted hsubmitted
    rw [heq]
    have hfollow := { app with
      commandLine := "", engine := engine, status := status }.follow_shadowed hs
        (hc c hsubmitted)
    exact hfollow

/-! ## 5. Every run -/

/-- While no line asks for the workspace that is shown, nothing is put away under its name. -/
theorem handleAll_shadowed (h : app.InStep) (hs : app.shadowed = [])
    (presses : List TerminalPress)
    (hc : ∀ k (hlt : k < presses.length),
      ∀ c ∈ (app.handleAll (presses.take k)).submitted? presses[k],
        ¬ c.Names (app.handleAll (presses.take k)).workspace) :
    (app.handleAll presses).shadowed = [] := by
  induction presses generalizing app with
  | nil => exact hs
  | cons press rest ih =>
    have hfirst : (app.handle press).shadowed = [] :=
      handle_shadowed h hs (hc 0 (Nat.zero_lt_succ _))
    exact ih (h.handle press).2 hfirst fun k hlt => hc (k + 1) (Nat.succ_lt_succ hlt)

/-- **Which notes a line loses.**  In a state that the application reaches from its start, let a
key press submit a line about workspaces.  Then the notes that are shown or put away are the
same as before, in some order, but for those that were put away under the name of the workspace
that the line leads away from.  There are such notes only if the workspace shown was asked for
by a line before. -/
theorem start_notes_perm_iff (presses : List TerminalPress) {press : TerminalPress} {c : Command}
    (hc : (start.handleAll presses).submitted? press = some c) :
    let app := start.handleAll presses
    (app.handle press).notes ++ app.lost c ~ app.notes ∧
      ((app.handle press).notes ~ app.notes ↔ app.lost c = []) ∧
      ((∀ k (hlt : k < presses.length),
          ∀ d ∈ (start.handleAll (presses.take k)).submitted? presses[k],
            ¬ d.Names (start.handleAll (presses.take k)).workspace) →
        app.lost c = []) := by
  intro app
  have hmoved : (app.handle press).notes ++ app.lost c ~ app.notes := handle_notes hc
  refine ⟨hmoved, ?_, ?_⟩
  · constructor
    · intro hkept
      have hlength := hmoved.length_eq
      rw [List.length_append, hkept.length_eq] at hlength
      exact List.length_eq_zero_iff.mp (by omega)
    · intro hnone
      rw [hnone, List.append_nil] at hmoved
      exact hmoved
  · intro hnames
    have hstart : start.InStep := InStep.ofItems welcome
    exact lost_eq_nil (handleAll_shadowed hstart rfl presses hnames) c

/-- The presses that type a line. -/
def typingLine (line : String) : List TerminalPress :=
  line.toList.map fun c => { key := .known (.char c) }

/-- The press that submits it. -/
def enterPress : TerminalPress := { key := .known .enter }

/-- A workspace is created, and left again. -/
theorem start_notes_kept :
    let presses := typingLine ":nw b" ++ [enterPress] ++ typingLine ":w default"
    let app := start.handleAll presses
    app.submitted? enterPress = some (.switchWorkspace "default") ∧
      ((app.handle enterPress).notes ++ app.lost (.switchWorkspace "default") ~ app.notes ∧
        ((app.handle enterPress).notes ~ app.notes ↔ app.lost (.switchWorkspace "default") = []) ∧
        ((∀ k (hlt : k < presses.length),
            ∀ d ∈ (start.handleAll (presses.take k)).submitted? presses[k],
              ¬ d.Names (start.handleAll (presses.take k)).workspace) →
          app.lost (.switchWorkspace "default") = [])) := by
  intro presses app
  have hsubmitted : app.submitted? enterPress = some (.switchWorkspace "default") := by
    decide +kernel
  exact ⟨hsubmitted, start_notes_perm_iff presses hsubmitted⟩

/-- The workspace that is shown is asked for, and then another one: all notes are lost. -/
theorem start_notes_lost :
    let app := start.handleAll (typingLine ":w default" ++ [enterPress] ++ typingLine ":nw x")
    app.submitted? enterPress = some (.createWorkspace "x") ∧
      app.notes = welcome ∧ (app.handle enterPress).notes = [] := by
  decide +kernel

end NoteApp

end ModalStack
