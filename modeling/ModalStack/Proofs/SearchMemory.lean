/-
# The last search is remembered

An engine whose keymaps lead to the library's actions remembers the search that it sent last, and
no other.  Searches that were begun since, typed, taken back, abandoned or submitted empty leave
the memory alone, since they write to a pattern of their own
(`Engine.Sent.search_remembered`).

The memory is a field of the state, and what was sent is a list that grows with the run
(`Engine.Sent`).  One input ties the two together (`State.Recalls`): a search that it sends is
remembered, anything else changes no memory, and a wish for the next match is sent only where
there is a memory already.
-/
import ModalStack.Proofs.Reachable
import ModalStack.Proofs.Turns

namespace ModalStack

/-! ## 1. Runs and what they sent -/

/-- The engine came about from a setup, and these commands were sent on the way, in this order. -/
inductive Engine.Sent {η : Type} (setup : Setup) : List Command → Engine η → Prop
  | start : Sent setup [] setup.start
  /-- The host carries out an operation. -/
  | perform {sent : List Command} {e : Engine η} (op : Engine.Operation) :
      Sent setup sent e → Sent setup (sent ++ (e.perform op).2.commands) (e.perform op).1
  /-- The host changes the listeners. -/
  | listen {sent : List Command} {e : Engine η} (listeners : Listeners η) :
      Sent setup sent e → Sent setup sent { e with listeners := listeners }

/-- The commands that some operations send, one after the other. -/
def Engine.sending {η : Type} (e : Engine η) : List Engine.Operation → List Command
  | [] => []
  | op :: rest => (e.perform op).2.commands ++ (e.perform op).1.sending rest

namespace Engine.Sent

variable {η : Type} {setup : Setup} {sent : List Command} {e : Engine η}

theorem reachable (h : Sent setup sent e) : e.Reachable setup := by
  induction h with
  | start => exact .start
  | perform op _ ih => exact ih.perform op
  | listen listeners _ ih => exact ih.listen listeners

theorem run (h : Sent setup sent e) (ops : List Operation) :
    Sent setup (sent ++ e.sending ops) (e.run ops) := by
  induction ops generalizing sent e with
  | nil => rw [sending, List.append_nil]; exact h
  | cons op rest ih =>
    rw [sending, ← List.append_assoc]
    exact ih (h.perform op)

end Engine.Sent

/-! ## 2. Searches among commands -/

namespace Command

/-- What the command searches for, if it is a search. -/
def query? : Command → Option Query
  | .search query => some query
  | _ => none

/-- The command is a search, or goes to the next match of one. -/
def Searches : Command → Prop
  | .search _ | .nextMatch _ => True
  | _ => False

theorem query?_eq_some_iff {c : Command} {query : Query} :
    c.query? = some query ↔ c = .search query := by
  cases c with
  | search _ => simp [query?]
  | _ => simp [query?]

theorem query?_eq_none {c : Command} (h : ¬ c.Searches) : c.query? = none := by
  cases c with
  | search _ => exact absurd trivial h
  | _ => rfl

theorem IsNews.not_searches {c : Command} (h : c.IsNews) : ¬ c.Searches := by
  cases c with
  | modeChange _ | bufferUpdate _ | selectionChange _ => exact id
  | _ => exact absurd h id

end Command

/-- What the latest search among some commands looks for. -/
def latestQuery (commands : List Command) : Option Query :=
  (commands.filterMap Command.query?).getLast?

theorem latestQuery_append (first second : List Command) :
    latestQuery (first ++ second) = (latestQuery second).or (latestQuery first) := by
  rw [latestQuery, List.filterMap_append, List.getLast?_append]
  rfl

theorem latestQuery_toList (sent : Option Command) :
    latestQuery sent.toList = sent.bind Command.query? := by
  cases sent with
  | none => rfl
  | some c => cases hc : c.query? <;> simp [latestQuery, hc]

theorem latestQuery_of_quiet {commands : List Command} (h : ∀ c ∈ commands, ¬ c.Searches) :
    latestQuery commands = none := by
  have hnone : commands.filterMap Command.query? = [] :=
    List.filterMap_eq_nil_iff.mpr fun c hc => Command.query?_eq_none (h c hc)
  rw [latestQuery, hnone, List.getLast?_nil]

/-- There is a latest search exactly if there is a search. -/
theorem latestQuery_isSome_iff {commands : List Command} :
    (latestQuery commands).isSome = true ↔ ∃ query, .search query ∈ commands := by
  rw [latestQuery, List.getLast?_isSome, ne_eq, List.filterMap_eq_nil_iff]
  constructor
  · intro h
    obtain ⟨c, hc⟩ := Classical.not_forall.mp h
    obtain ⟨hmem, hquery⟩ := Classical.not_imp.mp hc
    obtain ⟨query, hsome⟩ := Option.ne_none_iff_exists'.mp hquery
    exact ⟨query, Command.query?_eq_some_iff.mp hsome ▸ hmem⟩
  · rintro ⟨query, hmem⟩ hnone
    exact absurd (hnone _ hmem) (by simp [Command.query?])

/-! ## 3. What one input does to the memory -/

/-- From `s` to `t` the memory follows what was sent, and the next match of a search was asked
for only if there was a memory. -/
structure State.Recalls (s t : State) (sent : Option Command) : Prop where
  lastSearch : t.lastSearch = (sent.bind Command.query?).or s.lastSearch
  remembered : ∀ reverse, sent = some (.nextMatch reverse) → s.lastSearch.isSome = true

namespace State

variable {s t : State} {sent : Option Command}

/-- Nothing was searched. -/
theorem Recalls.of_quiet (h : t.lastSearch = s.lastSearch) (hq : ∀ c ∈ sent, ¬ c.Searches) :
    s.Recalls t sent := by
  cases sent with
  | none => exact ⟨h, fun _ hc => absurd hc (by simp)⟩
  | some c =>
    have hc : ¬ c.Searches := hq c rfl
    refine ⟨?_, ?_⟩
    · rw [Option.bind_some, Command.query?_eq_none hc, h, Option.none_or]
    · intro reverse heq
      rw [Option.some.inj heq] at hc
      exact absurd trivial hc

/-- Motions remember what was remembered. -/
theorem moveBy_lastSearch (s : State) (offset : Int) :
    (s.moveBy offset).lastSearch = s.lastSearch := by rw [moveBy_eq]

theorem jumpTo_lastSearch (s : State) (position : Int) :
    (s.jumpTo position).lastSearch = s.lastSearch := by rw [jumpTo_eq]

/-- **Typing a search** changes the memory only when the search is submitted, and then it is what
was typed. -/
theorem searchInput_recalls (s : State) (input : Input) (segmentation : Text.Segmentation) :
    s.Recalls (s.searchInput input segmentation).1 (s.searchInput input segmentation).2 := by
  cases input with
  | received c => exact .of_quiet rfl (by simp [searchInput])
  | key press =>
    simp only [searchInput, searchPress, submitSearch]
    split
    · exact .of_quiet rfl (by simp)
    · split
      · split
        · exact .of_quiet rfl (by simp)
        · -- the one place where a search is sent
          exact ⟨rfl, fun _ hc => absurd hc (by simp)⟩
      · split
        · exact .of_quiet rfl (by simp)
        · split
          · exact .of_quiet rfl (by simp)
          · exact .of_quiet rfl (by simp)

end State

/-- An operation that is no search, whether or not it touches anything. -/
theorem Action.finish_recalls {s : State} {outcome : Outcome}
    {command : List Nat → String → Command}
    (hq : ∀ positions register, ¬ (command positions register).Searches)
    (h : outcome.state.lastSearch = s.lastSearch) :
    s.Recalls ((finish outcome command).after s) (finish outcome command).command := by
  unfold finish
  split
  · exact .of_quiet h (by simp [Reaction.move])
  · refine .of_quiet h ?_
    rintro c hc
    obtain rfl := Option.some.inj hc
    exact hq _ _

/-- **Every action leaves the memory alone**, and the next match is asked for only where there is
one. -/
theorem Bound.recalls {i : Invocation} {mode : Mode} {run : Invocation → Reaction}
    (hb : Bound mode run) : i.state.Recalls ((run i).after i.state) (run i).command := by
  have hmotion : ∀ {c : Command}, ¬ c.Searches → ∀ d ∈ some c, ¬ d.Searches := by
    rintro c hc d hd
    obtain rfl := Option.some.inj hd
    exact hc
  cases hb with
  | moveDown _ | moveUp _ => exact .of_quiet (i.state.moveBy_lastSearch _) (hmotion id)
  | gotoPosition _ | gotoBottom _ =>
    exact .of_quiet (i.state.jumpTo_lastSearch _) (hmotion id)
  | gotoTop _ =>
    unfold Action.gotoTop
    split
    · exact .of_quiet (i.state.jumpTo_lastSearch _) (hmotion id)
    · exact .of_quiet (i.state.jumpTo_lastSearch _) (hmotion id)
  | gotoNamed =>
    unfold Action.gotoNamed
    split
    · exact .of_quiet rfl (hmotion id)
    · exact .of_quiet rfl (by simp [Reaction.nothing])
  | delete _ =>
    unfold Action.delete
    split
    · exact Action.finish_recalls (fun _ _ => id) rfl
    · exact Action.finish_recalls (fun _ _ => id) rfl
  | yank _ =>
    unfold Action.yank
    split
    · exact Action.finish_recalls (fun _ _ => id) rfl
    · exact Action.finish_recalls (fun _ _ => id) rfl
  | deleteToPosition =>
    unfold Action.deleteToPosition
    split
    · exact Action.finish_recalls (fun _ _ => id) rfl
    · exact .of_quiet rfl (by simp [Reaction.nothing])
  | yankToPosition =>
    unfold Action.yankToPosition
    split
    · exact Action.finish_recalls (fun _ _ => id) rfl
    · exact .of_quiet rfl (by simp [Reaction.nothing])
  | change _ | swap | rotate => exact Action.finish_recalls (fun _ _ => id) rfl
  | paste _ | openItem _ => exact .of_quiet rfl (hmotion id)
  | nextMatch reverse =>
    -- sent exactly where there is a memory
    cases hlast : i.state.lastSearch with
    | none =>
      exact .of_quiet rfl
        (by simp [Action.nextMatch, State.nextMatch, Reaction.report, hlast])
    | some query =>
      refine ⟨?_, fun _ _ => by rw [hlast]; rfl⟩
      simp [Action.nextMatch, State.nextMatch, Reaction.report, Reaction.after, hlast,
        Command.query?]
  | dotRepeat =>
    refine .of_quiet rfl ?_
    intro c hc
    obtain ⟨_, -, rfl⟩ := Option.map_eq_some_iff.mp hc
    exact id
  | insertMode | visualMode | commandMode | search _ | escape _ =>
    exact .of_quiet rfl (by simp [Action.insertMode, Action.visualMode, Action.commandMode,
      Action.search, Action.escape, Reaction.move])

/-! ## 4. What one operation does to it -/

/-- **Every input** that is typed to keymaps of the library. -/
theorem State.react_recalls {s : State} {keymaps : Keymaps} (hk : keymaps.OfLibrary)
    (settings : Settings) (input : Input) :
    s.Recalls (s.react keymaps settings input).1 (s.react keymaps settings input).2 := by
  rcases react_cases (fun _ hm => hk.bound hm) settings input with
    ⟨r, hb, heq⟩ | ⟨_, _, _, heq⟩ | ⟨-, heq⟩
  · have haction : s.Recalls ((r.reaction s settings).after s) (r.reaction s settings).command :=
      @Bound.recalls (r.invocation s settings) _ _ hb
    rw [heq, execute_snd]
    exact ⟨by rw [execute_fst]; exact haction.lastSearch, haction.remembered⟩
  · rw [heq]
    exact .of_quiet rfl (by simp)
  · rw [heq]
    exact s.searchInput_recalls input _

namespace Engine

variable {η : Type} {setup : Setup} {sent : List Command} {e : Engine η}

/-- **One operation** changes the memory as it says, and asks for the next match of what is
remembered only. -/
theorem perform_recalls (hk : e.keymaps.OfLibrary) (op : Operation) :
    (e.perform op).1.state.lastSearch
        = (latestQuery (e.perform op).2.commands).or e.state.lastSearch ∧
      ∀ reverse, .nextMatch reverse ∈ (e.perform op).2.commands →
        e.state.lastSearch.isSome = true := by
  cases op with
  | event input context =>
    simp only [perform]
    rcases e.handleEvent_cases input context with
      ⟨-, hstate, hcommands⟩ | ⟨-, hstate, hcommands⟩
    · rw [hstate, hcommands, State.step]
      obtain ⟨hlast, hremembered⟩ := State.react_recalls hk e.settings input (s := e.state)
      -- news are no searches, so what is sent before them decides
      have hnews : ∀ c ∈ State.news e.state (e.state.react e.keymaps e.settings input).1,
          ¬ c.Searches := fun c hc => (State.isNews_of_mem hc).not_searches
      refine ⟨?_, ?_⟩
      · rw [hlast, latestQuery_append, latestQuery_of_quiet hnews, Option.none_or,
          latestQuery_toList]
      · intro reverse hmem
        rcases List.mem_append.mp hmem with hsent | hmem
        · exact hremembered reverse (Option.mem_toList.mp hsent)
        · exact absurd trivial (hnews _ hmem)
    · rw [hstate, hcommands]
      exact ⟨rfl, fun _ hmem => absurd hmem (by simp)⟩
  | submitLine line =>
    have hquiet : ∀ c ∈ (e.submitLine line).2.commands, ¬ c.Searches := by
      intro c hc
      rcases List.mem_append.mp hc with hline | hmode
      · rcases CommandLine.parse_eq_some (Option.mem_toList.mp hline) with
          ⟨_, rfl⟩ | ⟨_, rfl⟩ | rfl
        all_goals exact id
      · split at hmode
        · rw [List.mem_singleton.mp hmode]
          exact id
        · exact absurd hmode (by simp)
    refine ⟨?_, fun _ hmem => absurd trivial (hquiet _ hmem)⟩
    rw [perform, latestQuery_of_quiet hquiet, Option.none_or]
    rfl
  | setDepth _ | setPendingCount _ | storeRegister _ _ =>
    exact ⟨rfl, fun _ hmem => absurd hmem (by simp [perform, Engine.sent])⟩

/-! ## 5. Every run -/

namespace Sent

/-- **The memory is the latest search of the run.** -/
theorem lastSearch (hk : setup.keymaps.OfLibrary) (h : Sent setup sent e) :
    e.state.lastSearch = latestQuery sent := by
  induction h with
  | start =>
    rw [Setup.start, Setup.state]
    split
    all_goals rfl
  | @perform sent e op h ih =>
    have hkeymaps : e.keymaps.OfLibrary := by rw [h.reachable.keymaps]; exact hk
    rw [latestQuery_append, ← ih, (perform_recalls hkeymaps op).1]
  | listen listeners _ ih => exact ih

/-- A wish for the next match stands behind a search. -/
theorem search_before_nextMatch (hk : setup.keymaps.OfLibrary) (h : Sent setup sent e)
    {before after : List Command} {reverse : Bool}
    (hsplit : sent = before ++ .nextMatch reverse :: after) :
    ∃ query, .search query ∈ before := by
  induction h generalizing before after with
  | start => exact absurd hsplit (by simp)
  | @perform sent e op h ih =>
    -- a new wish needs a memory, and so a search among the older commands
    have hnew : .nextMatch reverse ∈ (e.perform op).2.commands →
        ∃ query, .search query ∈ sent := by
      intro hmem
      have hkeymaps : e.keymaps.OfLibrary := by rw [h.reachable.keymaps]; exact hk
      have hsome := (perform_recalls hkeymaps op).2 reverse hmem
      rwa [h.lastSearch hk, latestQuery_isSome_iff] at hsome
    rcases List.append_eq_append_iff.mp hsplit with
      ⟨front, rfl, hcommands⟩ | ⟨rest, hbefore, hrest⟩
    · obtain ⟨query, hquery⟩ := hnew (by rw [hcommands]; simp)
      exact ⟨query, List.mem_append_left _ hquery⟩
    · cases rest with
      | nil =>
        rw [List.append_nil] at hbefore
        rw [← hbefore]
        exact hnew (by rw [List.nil_append] at hrest; rw [← hrest]; exact List.mem_cons_self)
      | cons c rest =>
        obtain ⟨rfl, -⟩ := List.cons.inj hrest
        exact ih hbefore
  | listen listeners _ ih => exact ih hsplit

/-- **The last search is remembered.**  The keymaps lead to actions of the library, and a host has
done anything to the engine.  Then its memory is the latest search that it sent, or empty if it
sent none; no wish for the next match was sent before a search; and the actions that go to the
next match send their wish exactly if there has been a search. -/
theorem search_remembered (hk : setup.keymaps.OfLibrary) (h : Sent setup sent e) :
    e.state.lastSearch = latestQuery sent ∧
      (∀ before reverse after, sent = before ++ .nextMatch reverse :: after →
        ∃ query, .search query ∈ before) ∧
      ∀ reverse (i : Invocation), i.state = e.state →
        ((Action.nextMatch reverse i).command = some (.nextMatch reverse) ↔
          ∃ query, .search query ∈ sent) := by
  refine ⟨h.lastSearch hk, fun _ _ _ => h.search_before_nextMatch hk, ?_⟩
  intro reverse i hi
  rw [← latestQuery_isSome_iff, ← h.lastSearch hk, ← hi]
  cases hlast : i.state.lastSearch with
  | none => simp [Action.nextMatch, State.nextMatch, Reaction.report, hlast]
  | some query => simp [Action.nextMatch, State.nextMatch, Reaction.report, hlast]

/-- A search is submitted; of the next ones, one is abandoned with a pattern typed and one is
submitted empty; and then the next match is asked for. -/
theorem search_remembered_across_abandoned :
    let e : Engine Unit := Setup.start { depth := 3 }
    let press (code : KeyCode) : List Operation := [.event (.key { code := code }) .stack]
    let ops := typing ['/', 'a', 'b'] ++ press .enter ++ typing ['?', 'x'] ++ press .escape
      ++ typing ['/'] ++ press .enter ++ typing ['n']
    let sent := e.sending ops
    let t := (e.run ops).state
    (Keymaps.default.OfLibrary ∧ Sent { depth := 3 } sent (e.run ops) ∧
        t.lastSearch = some ⟨"ab", .forward⟩ ∧ t.searchPattern = none ∧
        .nextMatch false ∈ sent) ∧
      t.lastSearch = latestQuery sent ∧
      (∀ before reverse after, sent = before ++ .nextMatch reverse :: after →
        ∃ query, .search query ∈ before) ∧
      ∀ reverse (i : Invocation), i.state = t →
        ((Action.nextMatch reverse i).command = some (.nextMatch reverse) ↔
          ∃ query, .search query ∈ sent) := by
  intro e press ops sent t
  have hsent : Sent { depth := 3 } sent (e.run ops) := Sent.start.run ops
  exact ⟨⟨Keymaps.default_ofLibrary, hsent, by decide +kernel⟩,
    search_remembered Keymaps.default_ofLibrary hsent⟩

end Sent

end Engine

end ModalStack
