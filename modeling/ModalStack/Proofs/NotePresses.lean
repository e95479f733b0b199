/-
# Notes under key presses

What a press does to the application is seen from its engine.  If the engine takes the press, the
application goes where the engine goes: the notes are what the commands asked for make of them, the
depth is reported if one of them may have changed it, and what is edited is as the last of them
says, until the engine is back in normal mode (`NoteApp.Took`).  A press in normal mode that the
engine does not take does nothing at all.  So as long as normal mode is on and no command resizes
the stack, characters that are typed do to the application what they do to its engine, and
everything that is known of engines holds of the notes too (`NoteApp.InStep.followed`).

Where the application waits in normal mode for a command (`NoteApp.Waits`), its engine is idle,
since it can be brought about from its setup without the application
(`NoteApp.handleAll_reachable`).
-/
import ModalStack.Proofs.CommandSpellings
import ModalStack.Proofs.NotesKept

namespace ModalStack

/-! ## 1. Presses and what the engine makes of them -/

namespace TerminalPress

/-- A character, typed with no modifier. -/
def plain (c : Char) : TerminalPress := { key := .known (.char c) }

/-- The escape key. -/
def escape : TerminalPress := { key := .known .escape }

theorem toPress?_plain (c : Char) : (plain c).toPress? = some (.plain c) := rfl

theorem toPress?_escape : escape.toPress? = some { code := .escape } := rfl

end TerminalPress

/-- Returning to normal mode is news, and only that is. -/
theorem State.normal_mem_news_iff {s t : State} :
    .modeChange .normal ∈ news s t ↔ t.mode = .normal ∧ s.mode ≠ .normal := by
  constructor
  · intro h
    have hmode : t.mode ≠ s.mode ∧ t.mode = .normal := by
      unfold news at h
      rcases List.mem_append.mp h with h | h
      · rcases List.mem_append.mp h with h | h
        · split at h
          · exact absurd h (by simp)
          · exact absurd h (by simp)
        · split at h
          · rename_i hne
            exact ⟨hne, (Command.modeChange.inj (List.mem_singleton.mp h)).symm⟩
          · exact absurd h (by simp)
      · split at h
        · exact absurd h (by simp)
        · exact absurd h (by simp)
    obtain ⟨hne, hnormal⟩ := hmode
    exact ⟨hnormal, fun hs => hne (hnormal.trans hs.symm)⟩
  · rintro ⟨hnormal, hne⟩
    rw [← hnormal]
    exact modeChange_mem_news fun heq => hne (heq.symm.trans hnormal)

/-- The engine handles what it takes. -/
theorem Engine.handleInput_handled {η : Type} (e : Engine η) (input : Input) :
    (e.handleInput input).2.handled = e.state.takes .stack input.press := by
  unfold handleInput handleEvent
  split
  · rename_i htakes
    exact htakes.symm
  · rename_i hleft
    simpa using hleft

/-- The commands that a press asks for come from keys. -/
theorem Engine.asked_fromKeys {η : Type} {e : Engine η} {input : Input} {context : Context}
    (hk : e.keymaps = .default) (htakes : e.state.takes context input.press = true) :
    ∀ c ∈ e.asked [.event input context], c.FromKeys := by
  intro c hc
  rw [(event_taken hk htakes).2] at hc
  exact State.react_fromKeys (Option.mem_toList.mp hc)

/-- **A command is pressed behind digits** in an idle engine.  The function that it runs sees the
state with the keys before the last one half typed; what it leaves is what the engine holds then,
but for what was typed and what is remembered of commands; and what it asks for is asked for. -/
theorem Engine.Idle.run_counted {η : Type} {e : Engine η} {X : List KeyPress}
    {run : Invocation → Reaction} {ds : List Char} (h : e.Idle) (hX : CountedCommand X run)
    (hds : ds.all Char.isDigit = true) :
    ∃ i : Invocation, ∃ ts, i.state = e.state.holdingKeys ts ∧
      i.count = (Numeral.count? ds).or e.state.pendingCount ∧
      (∃ lastCommand tick lastChange, (e.run (pressing (ds.map .plain ++ X))).state =
        { (run i).after i.state with
          buffer := ""
          keys := []
          pendingCount := none
          lastCommand := lastCommand
          tick := tick
          lastChange := lastChange }) ∧
      e.asked (pressing (ds.map .plain ++ X)) = (run i).command.toList := by
  obtain ⟨ts, r, hcounts, hstate, hasked⟩ := h.run_command hX hds
    (fun name hname => absurd hname (by simp) : ∀ name ∈ none, isRegisterName name = true)
  have hreaction : r.reaction (e.state.holdingKeys ts) e.settings
      = run (r.invocation (e.state.holdingKeys ts) e.settings) := by
    rw [Resolved.reaction, hcounts.run]
  rw [State.execute_fst, hreaction] at hstate
  rw [State.execute_snd, hreaction] at hasked
  refine ⟨r.invocation (e.state.holdingKeys ts) e.settings, ts, rfl, ?_, ?_, hasked⟩
  · rw [Resolved.invocation, hcounts.count]
    rfl
  · exact ⟨_, _, _, hstate⟩

namespace NoteApp

open Engine (pressing)

variable {app app' app'' : NoteApp} {news : List Command} {c : Command}

/-! ## 2. Commands that are carried out -/

/-- News leave the notes and the engine alone. -/
theorem foldl_news (hnews : ∀ c ∈ news, c.IsNews) (app : NoteApp) :
    ∃ line, news.foldl carryOut app =
      { app with
        commandLine := line
        editing := if .modeChange .normal ∈ news then none else app.editing } := by
  induction news generalizing app with
  | nil => exact ⟨app.commandLine, rfl⟩
  | cons c rest ih =>
    obtain ⟨hc, hrest⟩ := List.forall_mem_cons.mp hnews
    obtain ⟨line, hline⟩ := ih hrest (app.carryOut c)
    rw [List.foldl_cons, hline]
    cases c with
    | modeChange mode =>
      cases mode with
      | normal => exact ⟨line, by simp [carryOut, follow, NoteStack.apply]⟩
      | _ => exact ⟨line, by simp [carryOut, follow, NoteStack.apply]⟩
    | selectionChange _ | bufferUpdate _ =>
      exact ⟨line, by simp [carryOut, follow, NoteStack.apply]⟩
    | _ => exact absurd hc id

/-- A command from keys concerns the notes and what is edited, whatever the engine. -/
theorem carryOut_fromKeys (hc : c.FromKeys) (app : NoteApp) (engine : Engine NoteListener)
    (status : String) :
    ({ app with engine := engine, status := status } : NoteApp).carryOut c =
      { app with
        engine := engine
        status := status
        stack := app.stack.apply c
        editing := (app.carryOut c).editing } := by
  cases c with
  | modeChange _ | bufferUpdate _ | selectionChange _ => exact absurd hc id
  | switchWorkspace _ | listWorkspaces | createWorkspace _ => exact absurd hc id
  | _ => rfl

/-- So do several. -/
theorem foldl_fromKeys {commands : List Command} (h : ∀ c ∈ commands, c.FromKeys) (app : NoteApp)
    (engine : Engine NoteListener) (status : String) :
    commands.foldl carryOut { app with engine := engine, status := status } =
      { app with
        engine := engine
        status := status
        stack := commands.foldl NoteStack.apply app.stack
        editing := (commands.foldl carryOut app).editing } := by
  induction commands generalizing app with
  | nil => rfl
  | cons c rest ih =>
    obtain ⟨hc, hrest⟩ := List.forall_mem_cons.mp h
    -- without the engine the command does the same
    have hsame := carryOut_fromKeys hc app app.engine app.status
    have hnext := ih hrest
      { app with stack := app.stack.apply c, editing := (app.carryOut c).editing }
    rw [List.foldl_cons, carryOut_fromKeys hc, hnext, List.foldl_cons, List.foldl_cons, hsame]

/-! ## 3. Presses that the engine takes -/

/-- The application went with its engine through a press that the engine took. -/
structure Took (app app' : NoteApp) (known : KeyPress) : Prop where
  stack : app'.stack
    = (app.engine.asked (pressing [known])).foldl NoteStack.apply app.stack
  engine : app'.engine =
    if (app.engine.asked (pressing [known])).any NoteStack.resizes then
      (app.engine.run (pressing [known])).setDepth app'.stack.items.length
    else app.engine.run (pressing [known])
  editing : app'.editing =
    if (app.engine.run (pressing [known])).state.mode = .normal
        ∧ app.engine.state.mode ≠ .normal then none
    else ((app.engine.asked (pressing [known])).foldl carryOut app).editing
  workspaces : app.SameWorkspaces app'

/-- What is typed outside the command line submits nothing. -/
theorem submitted?_eq_none (hmode : app.engine.state.mode ≠ .command) (press : TerminalPress) :
    app.submitted? press = none := by
  unfold submitted?
  split
  · exact if_neg fun h => hmode h.1
  · rfl

theorem handle_of_not_command (hmode : app.engine.state.mode ≠ .command) {press : TerminalPress}
    {known : KeyPress} (hpress : press.toPress? = some known) :
    app.handle press =
      if app.engine.state.takes .stack known then
        app.afterReport (app.engine.handleInput (.key known))
      else app.typeKey known := by
  have hsubmit : ¬ (app.engine.state.mode = .command ∧ known.code = .enter) := fun h => hmode h.1
  simp only [handle, hpress, handlePress, if_neg hsubmit, Engine.handleInput_handled, Input.press]

/-- The commands of a press that the engine takes are carried out: what its action asks for, and
then the news. -/
theorem InStep.handle_taken (h : app.InStep) (hmode : app.engine.state.mode ≠ .command)
    {press : TerminalPress} {known : KeyPress} (hpress : press.toPress? = some known)
    (htakes : app.engine.state.takes .stack known = true) :
    ∃ status, app.handle press =
      ({ app with
          engine := app.engine.run (pressing [known]), status := status } : NoteApp).carryOutAll
        (app.engine.asked (pressing [known])
          ++ State.news app.engine.state (app.engine.run (pressing [known])).state) := by
  have htaken : app.engine.state.takes .stack (Input.key known).press = true := htakes
  obtain ⟨hstate, hasked⟩ := Engine.event_taken h.keymaps htaken
  have hcommands : (app.engine.handleInput (.key known)).2.commands
      = app.engine.asked (pressing [known])
        ++ State.news app.engine.state (app.engine.run (pressing [known])).state := by
    have hstep := app.engine.handleEvent_commands (.key known) .stack
    rw [if_pos htaken, h.keymaps] at hstep
    rw [pressing, List.map_singleton, hstate, hasked]
    exact hstep
  obtain ⟨status, hhear⟩ := hear_eq { app with engine := app.engine.run (pressing [known]) }
    (app.engine.handleInput (.key known)).2.deliveries
  refine ⟨status, ?_⟩
  rw [handle_of_not_command hmode hpress, if_pos htakes, NoteApp.afterReport, hcommands, ← hhear]
  rfl

/-- **A press that the engine takes.** -/
theorem InStep.took (h : app.InStep) (hmode : app.engine.state.mode ≠ .command)
    {press : TerminalPress} {known : KeyPress} (hpress : press.toPress? = some known)
    (htakes : app.engine.state.takes .stack known = true) :
    app.Took (app.handle press) known := by
  have hfromKeys : ∀ c ∈ app.engine.asked (pressing [known]), c.FromKeys :=
    Engine.asked_fromKeys h.keymaps htakes
  have hnews : ∀ c ∈ State.news app.engine.state (app.engine.run (pressing [known])).state,
      c.IsNews := fun c hc => State.isNews_of_mem hc
  have hworkspaces : app.SameWorkspaces (app.handle press) :=
    handle_unsubmitted h (submitted?_eq_none hmode press)
  obtain ⟨status, hafter⟩ := h.handle_taken hmode hpress htakes
  obtain ⟨line, hfold⟩ := foldl_news hnews
    ((app.engine.asked (pressing [known])).foldl carryOut
      { app with engine := app.engine.run (pressing [known]), status := status })
  rw [NoteApp.carryOutAll, List.foldl_append, hfold, foldl_fromKeys hfromKeys, List.any_append,
    any_resizes_news hnews, Bool.or_false] at hafter
  simp only [State.normal_mem_news_iff] at hafter
  -- the depth is reported, or there is nothing to report
  split at hafter
  · rename_i hr
    rw [hafter] at hworkspaces ⊢
    exact ⟨rfl, (if_pos hr).symm, rfl, hworkspaces⟩
  · rename_i hr
    rw [hafter] at hworkspaces ⊢
    exact ⟨rfl, (if_neg hr).symm, rfl, hworkspaces⟩

/-! ## 4. Runs in normal mode -/

/-- The application went with its engine through characters that were typed, and there was no
depth to report. -/
structure Followed (app app' : NoteApp) (cs : List Char) : Prop where
  engine : app'.engine = app.engine.run (pressing (cs.map .plain))
  stack : app'.stack
    = (app.engine.asked (pressing (cs.map .plain))).foldl NoteStack.apply app.stack
  workspaces : app.SameWorkspaces app'

/-- A character in normal mode.  One that the engine does not take does nothing. -/
theorem InStep.followed_press (h : app.InStep) (hmode : app.engine.state.mode = .normal) (c : Char)
    (hdepth : ∀ d ∈ app.engine.asked (pressing [.plain c]), NoteStack.resizes d = false) :
    app.Followed (app.handle (.plain c)) [c] := by
  have hnot : app.engine.state.mode ≠ .command := by
    rw [hmode]
    decide
  have hpress : (TerminalPress.plain c).toPress? = some (.plain c) :=
    TerminalPress.toPress?_plain c
  by_cases htakes : app.engine.state.takes .stack (.plain c) = true
  · have htook := h.took hnot hpress htakes
    have hresizes : ¬ (app.engine.asked (pressing [.plain c])).any NoteStack.resizes = true := by
      simpa using hdepth
    exact ⟨htook.engine.trans (if_neg hresizes), htook.stack, htook.workspaces⟩
  · have hleft : ¬ app.engine.state.takes .stack (Input.key (.plain c)).press = true := htakes
    have hengine : app.engine.run (pressing [.plain c]) = app.engine := by
      simp only [pressing, List.map_cons, List.map_nil, Engine.run, Engine.perform,
        Engine.handleEvent, if_neg hleft]
    have hasked : app.engine.asked (pressing [.plain c]) = [] := by
      simp only [pressing, List.map_cons, List.map_nil, Engine.asked, Engine.sending,
        Engine.perform, Engine.handleEvent_commands, if_neg hleft]
      rfl
    have hsame : app.handle (.plain c) = app := by
      rw [handle_of_not_command hnot hpress, if_neg htakes]
      simp only [NoteApp.typeKey, hmode]
    refine ⟨?_, ?_, ?_⟩
    · rw [List.map_singleton, hengine, hsame]
    · rw [List.map_singleton, hasked, hsame]
      rfl
    · rw [hsame]
      exact ⟨rfl, rfl⟩

/-- **Characters in normal mode.**  As long as normal mode is on and no command resizes the stack,
the application goes where its engine goes. -/
theorem InStep.followed {cs : List Char} (h : app.InStep)
    (hmode : ∀ front c, front ++ [c] <+: cs →
      (app.engine.run (pressing (front.map .plain))).state.mode = .normal)
    (hdepth : ∀ d ∈ app.engine.asked (pressing (cs.map .plain)), NoteStack.resizes d = false) :
    app.Followed (app.handleAll (cs.map .plain)) cs := by
  induction cs generalizing app with
  | nil => exact ⟨rfl, rfl, rfl, rfl⟩
  | cons c rest ih =>
    have hsplit : pressing ((c :: rest).map .plain)
        = pressing [.plain c] ++ pressing (rest.map .plain) := rfl
    rw [hsplit, Engine.asked_append] at hdepth
    have hfirst := h.followed_press (hmode [] c ⟨rest, rfl⟩) c
      fun d hd => hdepth d (List.mem_append_left _ hd)
    have hengine : (app.handle (.plain c)).engine = app.engine.run (pressing [.plain c]) :=
      hfirst.engine
    have hstack : (app.handle (.plain c)).stack
        = (app.engine.asked (pressing [.plain c])).foldl NoteStack.apply app.stack := hfirst.stack
    have hrest : (app.handle (.plain c)).Followed
        ((app.handle (.plain c)).handleAll (rest.map .plain)) rest := by
      refine ih (h.handle _).2 ?_ ?_
      · intro front d hfront
        have hlonger := hmode (c :: front) d (List.cons_prefix_cons.mpr ⟨rfl, hfront⟩)
        rw [hengine, ← Engine.run_append]
        exact hlonger
      · rw [hengine]
        exact fun d hd => hdepth d (List.mem_append_right _ hd)
    refine ⟨?_, ?_, hfirst.workspaces.trans hrest.workspaces⟩
    · rw [hsplit, Engine.run_append, ← hengine]
      exact hrest.engine
    · rw [hsplit, Engine.asked_append, List.foldl_append, ← hstack, ← hengine]
      exact hrest.stack

/-! ## 5. Applications that wait for a command -/

section

variable {setup : Setup}

/-- What a command means to the application is an operation on its engine, at most. -/
theorem follow_reachable (h : app.engine.Reachable setup) (c : Command) :
    (app.follow c).engine.Reachable setup := by
  have hswitch : ∀ (app : NoteApp) (name : String), app.engine.Reachable setup →
      (app.switchWorkspace name).engine.Reachable setup := by
    intro app name happ
    unfold switchWorkspace
    split
    · exact happ
    · exact happ.perform (.setDepth _)
  cases c with
  | modeChange mode =>
    cases mode with
    | _ => exact h
  | switchWorkspace name => exact hswitch app name h
  | createWorkspace name =>
    refine hswitch _ name ?_
    unfold addWorkspace
    split
    · exact h
    · exact h
  | _ => exact h

theorem carryOutAll_reachable (h : app.engine.Reachable setup) (commands : List Command) :
    (app.carryOutAll commands).engine.Reachable setup := by
  have hfold : (commands.foldl carryOut app).engine.Reachable setup := by
    induction commands generalizing app with
    | nil => exact h
    | cons c rest ih =>
      have happlied : ({ app with stack := app.stack.apply c } : NoteApp).engine.Reachable
          setup := h
      exact ih (follow_reachable happlied c)
  unfold carryOutAll
  split
  · exact hfold.perform (.setDepth _)
  · exact hfold

theorem afterReport_reachable {result : Engine NoteListener × Report NoteListener}
    (h : result.1.Reachable setup) : (app.afterReport result).engine.Reachable setup := by
  unfold afterReport
  obtain ⟨status, heq⟩ := hear_eq { app with engine := result.1 } result.2.deliveries
  have hheard : ({ app with engine := result.1, status := status } : NoteApp).engine.Reachable
      setup := h
  rw [heq]
  exact carryOutAll_reachable hheard _

/-- **Presses are operations of a host**: they lead from a reachable engine to a reachable one. -/
theorem handle_reachable (h : app.engine.Reachable setup) (press : TerminalPress) :
    (app.handle press).engine.Reachable setup := by
  unfold handle
  split
  · rename_i known _
    unfold handlePress
    split
    · unfold submit
      simp only
      split
      · exact h
      · exact afterReport_reachable (h.perform (.submitLine app.commandLine))
    · simp only
      split
      · exact afterReport_reachable (h.perform (.event (.key known) .stack))
      · unfold typeKey
        split
        · exact h
        · exact h
        · exact h
  · exact h

theorem handleAll_reachable (h : app.engine.Reachable setup) (presses : List TerminalPress) :
    (app.handleAll presses).engine.Reachable setup := by
  induction presses generalizing app with
  | nil => exact h
  | cons press rest ih => exact ih (handle_reachable h press)

end

theorem InStep.handleAll (h : app.InStep) (presses : List TerminalPress) :
    (app.handleAll presses).InStep := by
  induction presses generalizing app with
  | nil => exact h
  | cons press rest ih => exact ih (h.handle press).2

/-- The application waits for a command in normal mode: nothing is half typed, and no count was
set. -/
structure Waits (app : NoteApp) : Prop where
  inStep : app.InStep
  idle : app.engine.Idle
  count : app.engine.state.pendingCount = none

/-- **After the start** it is enough to look at the mode, the text that is half typed and the
count. -/
theorem start_waits (presses : List TerminalPress)
    (hmode : (start.handleAll presses).engine.state.mode = .normal)
    (hbuffer : (start.handleAll presses).engine.state.buffer = "")
    (hcount : (start.handleAll presses).engine.state.pendingCount = none) :
    (start.handleAll presses).Waits := by
  have hstart : start.engine.Reachable { depth := welcome.length } :=
    .listen statusListeners .start
  exact ⟨(InStep.ofItems welcome).handleAll presses,
    (handleAll_reachable hstart presses).idle rfl hmode hbuffer, hcount⟩

end NoteApp

end ModalStack
