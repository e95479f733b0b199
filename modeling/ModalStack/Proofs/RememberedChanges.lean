/-
# Which changes are remembered

The change that `.` repeats is recorded by the text of a command, and by the grammar of changes
that text is recorded exactly if the action that ran is one of those that ask for changes, and the
text is none of the ranges that are forgotten (`State.Runs.isRepeatable_iff`).

Two statements about every event follow.  Nothing but a change is remembered, and it is remembered
as it was typed (`Engine.Reachable.only_changes_remembered`).  And every change is remembered, and
repeated until another one is executed, unless it is one of the exceptions
(`Engine.Reachable.change_remembered_iff`).
-/
import ModalStack.Proofs.ChangeGrammar

namespace ModalStack

/-! ## 1. Commands that run -/

/-- The change that is described by the keys that are half typed together with one more token. -/
inductive State.Describes (s : State) (t : String) : Change → Prop
  | typed {register : Option String} {body : List String} :
      CommandKeys (s.keys ++ [t]) register body →
      Describes s t ⟨joinTokens body,
        (typedCount (joinTokens body).toList).or s.pendingCount, register⟩

namespace State.Runs

variable {s : State} {m : Keymap} {press : KeyPress} {r : Resolved}

theorem changes_or_keeps (h : s.Runs m press.token r) (hm : m.Recorded)
    (htokens : ∀ t ∈ s.keys, IsToken t) :
    Action.Changes r.action.run ∨ Action.Keeps r.action.run := by
  obtain ⟨key, hform⟩ := h.exists_form hm.doubled htokens
  cases hform.of_all hm.fits with
  | changes _ hchanges => exact .inl hchanges
  | keeps _ hkeeps => exact .inr hkeeps

/-- **What is recorded** are the commands that change items, but for ranges that are forgotten. -/
theorem isRepeatable_iff (h : s.Runs m press.token r) (hm : m.Recorded)
    (htokens : ∀ t ∈ s.keys, IsToken t) :
    Change.isRepeatable r.body = true ↔
      Action.Changes r.action.run ∧ ¬ Change.Forgotten r.body.toList := by
  obtain ⟨key, hform⟩ := h.exists_form hm.doubled htokens
  have hfits : Action.Fits key r.action := hform.of_all hm.fits
  rw [hfits.changes_iff, ← hform.isRepeatable_iff hm, String.ofList_toList]

/-- **A command that changes items is recorded as it was typed**, if it is recorded, and every key
of it is on record. -/
theorem describes (h : s.Runs m press.token r) (hm : m.Recorded)
    (htokens : ∀ t ∈ s.keys, IsToken t) (hempty : s.gathers = false → s.keys = [])
    (hchanges : Action.Changes r.action.run) :
    s.Describes press.token ⟨r.body, r.count.or s.pendingCount, r.register⟩ ∧
      r.raw = joinTokens (s.keys ++ [press.token]) := by
  obtain ⟨key, hform⟩ := h.exists_form hm.doubled htokens
  have hcount : r.count = typedCount r.body.toList := hform.count_eq hm.ends
  cases h with
  | together _ _ hr =>
    obtain ⟨body, hsplit, -, hraw, hbody⟩ := Keymap.exists_of_resolveKeys hr
    rw [hcount, hbody]
    exact ⟨.typed (.of_split hsplit), hraw⟩
  | @alone a halone ha =>
    -- neither an escape nor a quote is a key of changes
    have hfits : Action.Fits press.token a := by
      cases hm.fits _ (KeyTable.mem_of_get? (Keymap.get?_of_action? ha)) with
      | action hfits => exact hfits
    have hkey : press.token ∈ changeKeys := hfits.changes_iff.mp hchanges
    have hne : ∀ k ∈ changeKeys, k ≠ escapeToken ∧ k ≠ "\"" := by decide
    obtain ⟨hescape, hquote⟩ := hne _ hkey
    have hkeys : s.keys = [] := hempty (halone.resolve_right hescape)
    have hjoin : joinTokens [press.token] = press.token := by
      rw [← String.toList_inj, toList_joinTokens, List.flatMap_singleton]
    have hdescribed : s.Describes press.token ⟨joinTokens [press.token],
        (typedCount (joinTokens [press.token]).toList).or s.pendingCount, none⟩ := by
      refine .typed ?_
      rw [hkeys]
      exact .unnamed (by simpa using hquote)
    rw [hjoin] at hdescribed
    rw [hcount, hkeys, List.nil_append, hjoin]
    exact ⟨hdescribed, rfl⟩

end State.Runs

/-- An input that completes no command, typed into a search or otherwise, makes no change and
nothing to remember. -/
theorem State.react_of_not_runs {s : State} {keymaps : Keymaps} (settings : Settings)
    {input : Input} (hnone : ∀ m, keymaps.forMode? s.mode = some m →
      ∀ r, ¬ s.Runs m input.press.token r) :
    (s.react keymaps settings input).1.lastChange = s.lastChange ∧
      ∀ c ∈ (s.react keymaps settings input).2, ¬ c.IsChange := by
  cases hm : keymaps.forMode? s.mode with
  | none =>
    obtain ⟨_, _, _, _, -, heq, hsearch⟩ := s.searchInput_eq input settings.segmentation
    rw [react_of_search (mode_eq_search_of_forMode? hm), heq]
    refine ⟨rfl, ?_⟩
    intro c hc
    obtain ⟨_, rfl⟩ := hsearch c hc
    exact id
  | some m =>
    rw [react_eq_token hm]
    rcases token_of_not_runs (hnone m hm) settings with heq | heq | ⟨heq, -⟩ | ⟨heq, -⟩
    all_goals
      rw [heq]
      exact ⟨rfl, fun c hc => absurd hc (by simp)⟩

/-! ## 2. Events -/

namespace Engine

variable {η : Type} {setup : Setup} {e : Engine η} {input : Input} {context : Context}
  {r : Resolved} {c : Command}

/-- The event is taken, and completes a command. -/
structure Executes (e : Engine η) (input : Input) (context : Context) (r : Resolved) : Prop where
  takes : e.state.takes context input.press = true
  runs : ∃ m, e.keymaps.forMode? e.state.mode = some m ∧ e.state.Runs m input.press.token r

namespace Executes

theorem state_eq (h : e.Executes input context r) :
    (e.handleEvent input context).1.state = (e.state.execute e.settings r).1 := by
  obtain ⟨m, hm, hruns⟩ := h.runs
  rw [handleEvent_state, if_pos h.takes, hruns.react_eq hm]

/-- A change that is asked for is what the action asks for. -/
theorem command_eq (h : e.Executes input context r)
    (hc : c ∈ (e.handleEvent input context).2.commands) (hchange : c.IsChange) :
    (r.reaction e.state e.settings).command = some c := by
  obtain ⟨m, hm, hruns⟩ := h.runs
  rw [handleEvent_commands, if_pos h.takes, State.step, hruns.react_eq hm] at hc
  rcases List.mem_append.mp hc with hsent | hnews
  · exact Option.mem_toList.mp hsent
  · exact absurd hchange (State.isNews_of_mem hnews).not_isChange

end Executes

/-- An event that completes no command makes no change, and nothing to remember. -/
theorem quiet_of_not_executes (hnone : ∀ r, ¬ e.Executes input context r) :
    (e.handleEvent input context).1.state.lastChange = e.state.lastChange ∧
      ∀ c ∈ (e.handleEvent input context).2.commands, ¬ c.IsChange := by
  rcases e.handleEvent_cases input context with
    ⟨htakes, hstate, hcommands⟩ | ⟨-, hstate, hcommands⟩
  · obtain ⟨hlast, hquiet⟩ := State.react_of_not_runs e.settings
      fun m hm r hr => hnone r ⟨htakes, m, hm, hr⟩
    rw [hstate, hcommands]
    refine ⟨hlast, ?_⟩
    intro c hc
    rcases List.mem_append.mp hc with hsent | hnews
    · exact hquiet c (Option.mem_toList.mp hsent)
    · exact (State.isNews_of_mem hnews).not_isChange
  · rw [hstate, hcommands]
    exact ⟨rfl, fun c hc => absurd hc (by simp)⟩

namespace Executes

/-- In a reachable engine the keymap of the command is one of the default ones. -/
theorem exists_recorded (h : e.Executes input context r) (hk : setup.keymaps = .default)
    (hr : e.Reachable setup) : ∃ m, m.Recorded ∧ e.state.Runs m input.press.token r := by
  obtain ⟨m, hm, hruns⟩ := h.runs
  rw [hr.keymaps, hk] at hm
  exact ⟨m, Keymap.default_recorded hm, hruns⟩

/-- **What an executed command leaves in memory.** -/
theorem lastChange (h : e.Executes input context r) (hk : e.keymaps = .default) :
    (e.handleEvent input context).1.state.lastChange =
      if Change.isRepeatable r.body then
        some ⟨r.body, r.count.or e.state.pendingCount, r.register⟩
      else e.state.lastChange := by
  obtain ⟨m, hm, hruns⟩ := h.runs
  rw [hk] at hm
  have hbound : Bound e.state.mode r.action.run := by
    cases hruns with
    | together _ _ hr => exact (Keymaps.default_all hm).resolveKeys hr
    | alone _ ha => exact (Keymaps.default_all hm).action? ha
  have haction : ((r.reaction e.state e.settings).after e.state).lastChange = e.state.lastChange :=
    @Bound.lastChange (r.invocation e.state e.settings) _ _ hbound
  rw [h.state_eq, State.execute_fst, haction]

theorem isRepeatable_iff (h : e.Executes input context r) (hk : setup.keymaps = .default)
    (hr : e.Reachable setup) :
    Change.isRepeatable r.body = true ↔
      Action.Changes r.action.run ∧ ¬ Change.Forgotten r.body.toList := by
  obtain ⟨m, hm, hruns⟩ := h.exists_recorded hk hr
  exact hruns.isRepeatable_iff hm hr.gathered.tokens

/-- An action that leaves the items alone leaves the memory alone. -/
theorem lastChange_of_keeps (h : e.Executes input context r) (hk : setup.keymaps = .default)
    (hr : e.Reachable setup) (hkeeps : Action.Keeps r.action.run) :
    (e.handleEvent input context).1.state.lastChange = e.state.lastChange := by
  have hnot : ¬ Change.isRepeatable r.body = true := fun hrepeatable =>
    ((h.isRepeatable_iff hk hr).mp hrepeatable).1.not_keeps hkeeps
  rw [h.lastChange (hr.keymaps.trans hk), if_neg hnot]

/-- An action that changes items is described by its keys. -/
theorem describes (h : e.Executes input context r) (hk : setup.keymaps = .default)
    (hr : e.Reachable setup) (hchanges : Action.Changes r.action.run) :
    e.state.Describes input.press.token
        ⟨r.body, r.count.or e.state.pendingCount, r.register⟩ ∧
      r.raw = joinTokens (e.state.keys ++ [input.press.token]) := by
  obtain ⟨m, hm, hruns⟩ := h.exists_recorded hk hr
  exact hruns.describes hm hr.gathered.tokens (fun hgathers => (hr.gathered.empty hgathers).2)
    hchanges

/-- What asks for a change is one of the actions that do. -/
theorem changes_of_command (h : e.Executes input context r) (hk : setup.keymaps = .default)
    (hr : e.Reachable setup) (hc : c ∈ (e.handleEvent input context).2.commands)
    (hchange : c.IsChange) : Action.Changes r.action.run := by
  obtain ⟨m, hm, hruns⟩ := h.exists_recorded hk hr
  rcases hruns.changes_or_keeps hm hr.gathered.tokens with hchanges | hkeeps
  · exact hchanges
  · exact absurd hchange (hkeeps.not_isChange (h.command_eq hc hchange))

end Executes

namespace Reachable

/-- **Only changes are remembered.**  Under the default keymaps, whatever a host has done and
whatever is typed: if the memory is different afterwards, then an action ran that changes items,
and what is remembered is the command as it was typed, without its register prefix, with the count
that was typed or else the one that was waiting, and with the register that was named.  Motions,
searches and their repetition, changes of mode, names and `.` itself leave the memory alone. -/
theorem only_changes_remembered (hk : setup.keymaps = .default) (h : e.Reachable setup)
    (input : Input) (context : Context) :
    let s := e.state
    let t := (e.handleEvent input context).1.state
    (t.lastChange ≠ s.lastChange →
      ∃ r change, e.Executes input context r ∧ t = (s.execute e.settings r).1 ∧
        Action.Changes r.action.run ∧ s.Describes input.press.token change ∧
        t.lastChange = some change) ∧
      ∀ r, e.Executes input context r → Action.Keeps r.action.run →
        t.lastChange = s.lastChange := by
  intro s t
  refine ⟨?_, fun r hexecutes hkeeps => hexecutes.lastChange_of_keeps hk h hkeeps⟩
  intro hne
  obtain ⟨r, hexecutes⟩ : ∃ r, e.Executes input context r := by
    refine Classical.not_forall_not.mp fun hnone => hne ?_
    exact (quiet_of_not_executes hnone).1
  have hlast := hexecutes.lastChange (h.keymaps.trans hk)
  have hrepeatable : Change.isRepeatable r.body = true := by
    refine Decidable.byContradiction fun hnot => hne ?_
    rw [if_neg hnot] at hlast
    exact hlast
  obtain ⟨hchanges, -⟩ := (hexecutes.isRepeatable_iff hk h).mp hrepeatable
  rw [if_pos hrepeatable] at hlast
  exact ⟨r, _, hexecutes, hexecutes.state_eq, hchanges, (hexecutes.describes hk h hchanges).1,
    hlast⟩

/-- Three items are deleted into register `b` while another count is waiting. -/
theorem only_changes_remembered_in_register :
    let e : Engine Unit := (Setup.start { depth := 5 }).run
      (.setPendingCount (some 2) :: typing ['"', 'b', '3', 'd'])
    let input : Input := .key (.plain 'd')
    let s := e.state
    let t := (e.handleEvent input .stack).1.state
    (e.Reachable { depth := 5 } ∧ t.lastChange = some ⟨"3dd", some 3, some "b"⟩) ∧
      (t.lastChange ≠ s.lastChange →
        ∃ r change, e.Executes input .stack r ∧ t = (s.execute e.settings r).1 ∧
          Action.Changes r.action.run ∧ s.Describes input.press.token change ∧
          t.lastChange = some change) ∧
      ∀ r, e.Executes input .stack r → Action.Keeps r.action.run →
        t.lastChange = s.lastChange := by
  intro e input s t
  have h : e.Reachable { depth := 5 } := Reachable.start.run _
  exact ⟨⟨h, by decide +kernel⟩, only_changes_remembered rfl h input .stack⟩

end Reachable

/-! ## 3. The repetition -/

/-- Nothing that changes items is executed in the course of the operations. -/
def KeepsItems (e : Engine η) : List Operation → Prop
  | [] => True
  | op :: rest =>
    (∀ input context r, op = .event input context → e.Executes input context r →
      Action.Keeps r.action.run) ∧ (e.perform op).1.KeepsItems rest

/-- The engine remembers the change, and until another one is executed `.` repeats this one. -/
structure Remembers (e : Engine η) (change : Change) : Prop where
  lastChange : e.state.lastChange = some change
  repeats : ∀ ops, e.KeepsItems ops → ∀ i : Invocation, i.state = (e.run ops).state →
    (Action.dotRepeat i).command = some (.dotRepeat change)

namespace Reachable

/-- One operation without a change. -/
theorem perform_lastChange (hk : setup.keymaps = .default) (h : e.Reachable setup) {op : Operation}
    (hkeeps : ∀ input context r, op = .event input context → e.Executes input context r →
      Action.Keeps r.action.run) : (e.perform op).1.state.lastChange = e.state.lastChange := by
  cases op with
  | event input context =>
    by_cases hexecutes : ∃ r, e.Executes input context r
    · obtain ⟨r, hr⟩ := hexecutes
      exact hr.lastChange_of_keeps hk h (hkeeps input context r rfl hr)
    · exact (quiet_of_not_executes (not_exists.mp hexecutes)).1
  | submitLine _ | setDepth _ | setPendingCount _ | storeRegister _ _ => rfl

/-- **Without a change the memory stays**, over any run. -/
theorem run_lastChange (hk : setup.keymaps = .default) (h : e.Reachable setup)
    {ops : List Operation} (hops : e.KeepsItems ops) :
    (e.run ops).state.lastChange = e.state.lastChange := by
  induction ops generalizing e with
  | nil => rfl
  | cons op rest ih =>
    obtain ⟨hop, hrest⟩ := hops
    rw [Engine.run, ih (h.perform op) hrest, perform_lastChange hk h hop]

theorem remembers (hk : setup.keymaps = .default) (h : e.Reachable setup) {change : Change}
    (hlast : e.state.lastChange = some change) : e.Remembers change where
  lastChange := hlast
  repeats ops hops i hi := by
    rw [Action.dotRepeat, State.repeatChange, hi, h.run_lastChange hk hops, hlast]
    rfl

/-- **Every change is remembered, but for the ranges that are forgotten.**  Under the default
keymaps, whatever a host has done: an event that asks for a change executes a command whose keys
are all on record.  The command, without its register prefix, is repeatable, and the change that
its keys describe is remembered and will be repeated, exactly if it is not a range before a letter
that the grammar of changes has no ranges for; and if it is, then the memory is what it was. -/
theorem change_remembered_iff (hk : setup.keymaps = .default) (h : e.Reachable setup)
    (hc : c ∈ (e.handleEvent input context).2.commands) (hchange : c.IsChange) :
    let s := e.state
    let next := (e.handleEvent input context).1
    ∃ change, s.Describes input.press.token change ∧
      next.state.lastCommand = some (joinTokens (s.keys ++ [input.press.token])) ∧
      (Change.isRepeatable change.command = true ∧ next.Remembers change ↔
        ¬ Change.Forgotten change.command.toList) ∧
      (Change.Forgotten change.command.toList → next.state.lastChange = s.lastChange) := by
  intro s next
  obtain ⟨r, hexecutes⟩ : ∃ r, e.Executes input context r :=
    Classical.not_forall_not.mp fun hnone => (quiet_of_not_executes hnone).2 c hc hchange
  have hchanges : Action.Changes r.action.run := hexecutes.changes_of_command hk h hc hchange
  obtain ⟨hdescribes, hraw⟩ := hexecutes.describes hk h hchanges
  have hnext : next.Reachable setup := h.perform (.event input context)
  have hlast := hexecutes.lastChange (h.keymaps.trans hk)
  have hiff : Change.isRepeatable r.body = true ↔ ¬ Change.Forgotten r.body.toList := by
    rw [hexecutes.isRepeatable_iff hk h]
    exact and_iff_right hchanges
  refine ⟨_, hdescribes, ?_, ?_, ?_⟩
  · rw [← hraw, hexecutes.state_eq, State.execute_fst]
  · constructor
    · rintro ⟨hrepeatable, -⟩
      exact hiff.mp hrepeatable
    · intro hnot
      have hrepeatable : Change.isRepeatable r.body = true := hiff.mpr hnot
      rw [if_pos hrepeatable] at hlast
      exact ⟨hrepeatable, hnext.remembers hk hlast⟩
  · intro hforgotten
    have hnot : ¬ Change.isRepeatable r.body = true := fun hrepeatable =>
      hiff.mp hrepeatable hforgotten
    rw [if_neg hnot] at hlast
    exact hlast

/-- An item is deleted and then a range of items copied: `.` will copy. -/
theorem change_remembered_behind_range :
    let e : Engine Unit := (Setup.start { depth := 5 }).run (typing ['d', 'd', '2', ',', '4'])
    let input : Input := .key (.plain 'y')
    let s := e.state
    let next := (e.handleEvent input .stack).1
    (e.Reachable { depth := 5 } ∧
        .yankItems [2, 3, 4] "\"" ∈ (e.handleEvent input .stack).2.commands ∧
        s.lastChange = some ⟨"dd", none, none⟩ ∧
        next.state.lastChange = some ⟨"2,4y", none, none⟩) ∧
      ∃ change, s.Describes input.press.token change ∧
        next.state.lastCommand = some (joinTokens (s.keys ++ [input.press.token])) ∧
        (Change.isRepeatable change.command = true ∧ next.Remembers change ↔
          ¬ Change.Forgotten change.command.toList) ∧
        (Change.Forgotten change.command.toList → next.state.lastChange = s.lastChange) := by
  intro e input s next
  have h : e.Reachable { depth := 5 } := Reachable.start.run _
  have hc : .yankItems [2, 3, 4] "\"" ∈ (e.handleEvent input .stack).2.commands := by
    decide +kernel
  exact ⟨⟨h, hc, by decide +kernel, by decide +kernel⟩, change_remembered_iff rfl h hc trivial⟩

/-- An item is deleted, and then two numbers with a comma between them stand before `p`.  This is
pasted, and what `.` repeats is still the deletion. -/
theorem paste_behind_range_forgotten :
    let e : Engine Unit := (Setup.start { depth := 3 }).run (typing ['d', 'd', '2', ',', '3'])
    let input : Input := .key (.plain 'p')
    let next := (e.handleEvent input .stack).1
    e.Reachable { depth := 3 } ∧
      .pasteItems "\"" 1 1 ∈ (e.handleEvent input .stack).2.commands ∧
      next.state.lastCommand = some "2,3p" ∧ Change.isRepeatable "2,3p" = false ∧
      next.state.lastChange = some ⟨"dd", none, none⟩ := by
  intro e input next
  exact ⟨Reachable.start.run _, by decide +kernel⟩

end Reachable

end Engine

end ModalStack
