/-
# What one input can do

`State.react` decides in several layers what an input does: by mode, by token, by what the
keys typed so far resolve to.  `State.Turn` lists the outcomes once, with everything that was
decided on the way, and `State.react_turn` says that there are no others.  An invariant of the
engine is then a case analysis over seven outcomes, and for most invariants over three
(`State.react_cases`): an action ran, only the half-typed command changed, or a search was
typed.

What running an action means for the state is said here too, field by field.
-/
import ModalStack.Proofs.Leaves
import ModalStack.State.Step

namespace ModalStack

/-! ## 1. Running an action -/

/-- What a resolved action sees. -/
def Resolved.invocation (r : Resolved) (s : State) (settings : Settings) : Invocation where
  state := s
  count := r.count.or s.pendingCount
  register := r.register
  operand := r.phrase.map Phrase.operand
  settings := settings

/-- What a resolved action does. -/
def Resolved.reaction (r : Resolved) (s : State) (settings : Settings) : Reaction :=
  r.action.run (r.invocation s settings)

namespace State

variable {s : State} {settings : Settings} {r : Resolved}

theorem recordChange_eq (s : State) (command : String) (count : Option Nat)
    (register : Option String) :
    s.recordChange command count register =
      { s with lastChange :=
          if Change.isRepeatable command then some ⟨command, count, register⟩
          else s.lastChange } := by
  unfold recordChange
  split <;> rfl

/-- **Running an action.**  The state is the one that the action leaves, with what was typed
spent, the command counted and, if it can be repeated, remembered. -/
theorem execute_fst (s : State) (settings : Settings) (r : Resolved) :
    (s.execute settings r).1 =
      { (r.reaction s settings).after s with
        buffer := ""
        keys := []
        pendingCount := none
        lastCommand := some r.raw
        tick := wrap (s.tick + 1)
        lastChange :=
          if Change.isRepeatable r.body then
            some ⟨r.body, r.count.or s.pendingCount, r.register⟩
          else ((r.reaction s settings).after s).lastChange } := by
  simp only [execute, recordChange_eq]
  rfl

theorem execute_snd : (s.execute settings r).2 = (r.reaction s settings).command := rfl

@[simp] theorem execute_buffer : (s.execute settings r).1.buffer = "" := by rw [execute_fst]

@[simp] theorem execute_keys : (s.execute settings r).1.keys = [] := by rw [execute_fst]

@[simp] theorem execute_mode :
    (s.execute settings r).1.mode = ((r.reaction s settings).after s).mode := by
  rw [execute_fst]

@[simp] theorem execute_position :
    (s.execute settings r).1.position = ((r.reaction s settings).after s).position := by
  rw [execute_fst]

@[simp] theorem execute_depth :
    (s.execute settings r).1.depth = ((r.reaction s settings).after s).depth := by
  rw [execute_fst]

@[simp] theorem execute_selection :
    (s.execute settings r).1.selection = ((r.reaction s settings).after s).selection := by
  rw [execute_fst]

/-! ## 2. The outcomes of an input -/

/-- What an input can do in a state, with the reason for it. -/
inductive Turn (s : State) (keymaps : Keymaps) (settings : Settings) (input : Input) :
    State × Option Command → Prop
  /-- The input was typed into a search. -/
  | typed : s.mode = .search →
      Turn s keymaps settings input (s.searchInput input settings.segmentation)
  /-- The token completed a command. -/
  | completed {m : Keymap} {r : Resolved} :
      keymaps.forMode? s.mode = some m → s.gathers = true →
      m.resolveKeys (s.keys ++ [input.press.token]) = .resolved r →
      Turn s keymaps settings input (s.execute settings r)
  /-- The token went on a command that is not complete. -/
  | gathered {m : Keymap} :
      keymaps.forMode? s.mode = some m → s.gathers = true →
      m.resolveKeys (s.keys ++ [input.press.token]) = .pending →
      Turn s keymaps settings input
        ({ s with
            buffer := joinTokens (s.keys ++ [input.press.token])
            keys := s.keys ++ [input.press.token] }, none)
  /-- Nothing could come of the token. -/
  | rejected {m : Keymap} :
      keymaps.forMode? s.mode = some m → s.gathers = true →
      m.resolveKeys (s.keys ++ [input.press.token]) = .invalid →
      Turn s keymaps settings input (s.clearBuffer, none)
  /-- The token alone named an action. -/
  | lookedUp {m : Keymap} {a : Action} :
      keymaps.forMode? s.mode = some m → m.action? input.press.token = some a →
      Turn s keymaps settings input (s.execute settings (.bare a input.press.token))
  /-- An escape that is not bound dropped what was typed. -/
  | escaped {m : Keymap} :
      keymaps.forMode? s.mode = some m → input.press.token = escapeToken →
      m.action? input.press.token = none →
      Turn s keymaps settings input ({ s.clearBuffer with pendingCount := none }, none)
  /-- The token means nothing in a mode that gathers no keys. -/
  | ignored {m : Keymap} :
      keymaps.forMode? s.mode = some m → s.gathers = false →
      m.action? input.press.token = none →
      Turn s keymaps settings input (s, none)

/-- Only the search has no keymap. -/
theorem mode_eq_search_of_forMode? {keymaps : Keymaps} {mode : Mode}
    (h : keymaps.forMode? mode = none) : mode = .search := by
  cases mode with
  | search => rfl
  | _ => exact absurd h (by simp [Keymaps.forMode?])

/-- **There are no other outcomes.** -/
theorem react_turn (s : State) (keymaps : Keymaps) (settings : Settings) (input : Input) :
    s.Turn keymaps settings input (s.react keymaps settings input) := by
  unfold react
  split
  · rename_i hm
    exact .typed (mode_eq_search_of_forMode? hm)
  · rename_i m hm
    unfold State.token
    split
    · rename_i hg
      have hgathers : s.gathers = true := (Bool.and_eq_true_iff.mp hg).1
      simp only [gather]
      split
      · rename_i r hr
        exact .completed hm hgathers hr
      · rename_i hr
        exact .gathered hm hgathers hr
      · rename_i hr
        exact .rejected hm hgathers hr
    · rename_i hg
      unfold lookUp
      split
      · rename_i a ha
        exact .lookedUp hm ha
      · rename_i ha
        split
        · rename_i hesc
          exact .escaped hm hesc ha
        · rename_i hesc
          refine .ignored hm ?_ ha
          -- the token is no escape, so it was not gathered because of the mode
          simpa [hesc] using hg

variable {keymaps : Keymaps} {m : Keymap} {input : Input} {t : String}

/-- A search takes its input as it comes. -/
theorem react_of_search (hmode : s.mode = .search) (keymaps : Keymaps) (settings : Settings)
    (input : Input) :
    s.react keymaps settings input = s.searchInput input settings.segmentation := by
  simp only [react, hmode, Keymaps.forMode?]

/-- In a mode that has a keymap an input counts by its token. -/
theorem react_eq_token (hm : keymaps.forMode? s.mode = some m) :
    s.react keymaps settings input = s.token m settings input.press.token := by
  simp only [react, hm]

/-- The escape token runs what it is bound to, whatever is half typed. -/
theorem token_escape {a : Action} (ha : m.action? escapeToken = some a) :
    s.token m settings escapeToken = s.execute settings (.bare a escapeToken) := by
  simp [State.token, lookUp, ha]

/-- A token of which nothing can come drops what is half typed. -/
theorem token_of_invalid (hg : s.gathers = true) (hne : t ≠ escapeToken)
    (ht : m.resolveKeys (s.keys ++ [t]) = .invalid) :
    s.token m settings t = (s.clearBuffer, none) := by
  have hgathers : (s.gathers && t != escapeToken) = true := by simp [hg, hne]
  simp only [State.token, hgathers, if_true, gather, ht]

/-- **An input, seen coarsely.**  An action of the keymap ran, or nothing changed but the
half-typed command and its count, or a search was typed. -/
theorem react_cases {P : Action → Prop} {keymaps : Keymaps}
    (hP : ∀ m, keymaps.forMode? s.mode = some m → m.All P) (settings : Settings)
    (input : Input) :
    (∃ r : Resolved, P r.action ∧
        s.react keymaps settings input = s.execute settings r) ∨
      (∃ buffer keys count,
        s.react keymaps settings input =
          ({ s with buffer := buffer, keys := keys, pendingCount := count }, none)) ∨
      (s.mode = .search ∧
        s.react keymaps settings input = s.searchInput input settings.segmentation) := by
  generalize hres : s.react keymaps settings input = result
  have hturn : s.Turn keymaps settings input result := hres ▸ s.react_turn keymaps settings input
  cases hturn with
  | typed hs => exact .inr (.inr ⟨hs, rfl⟩)
  | completed hm hg hr => exact .inl ⟨_, (hP _ hm).resolveKeys hr, rfl⟩
  | gathered hm hg hr => exact .inr (.inl ⟨_, _, s.pendingCount, rfl⟩)
  | rejected hm hg hr => exact .inr (.inl ⟨"", [], s.pendingCount, rfl⟩)
  | lookedUp hm ha => exact .inl ⟨_, (hP _ hm).action? ha, rfl⟩
  | escaped hm hesc ha => exact .inr (.inl ⟨"", [], none, rfl⟩)
  | ignored hm hg ha => exact .inr (.inl ⟨s.buffer, s.keys, s.pendingCount, rfl⟩)

/-- The same under the default keymaps: the action is one that the mode binds. -/
theorem react_default (s : State) (settings : Settings) (input : Input) :
    (∃ r : Resolved, Bound s.mode r.action.run ∧
        s.react .default settings input = s.execute settings r) ∨
      (∃ buffer keys count,
        s.react .default settings input =
          ({ s with buffer := buffer, keys := keys, pendingCount := count }, none)) ∨
      (s.mode = .search ∧
        s.react .default settings input = s.searchInput input settings.segmentation) :=
  react_cases (fun _ hm => Keymaps.default_all hm) settings input

/-! ## 3. Typing a search -/

/-- **What typing a search does.**  It changes the search and nothing else, but for leaving the
mode, and the one command that it sends is the search. -/
theorem searchInput_eq (s : State) (input : Input) (segmentation : Text.Segmentation) :
    ∃ mode pattern direction last, (mode = s.mode ∨ mode = .normal) ∧
      (s.searchInput input segmentation).1 =
        { s with
          mode := mode
          searchPattern := pattern
          searchDirection := direction
          lastSearch := last } ∧
      ∀ c ∈ (s.searchInput input segmentation).2, ∃ query, c = .search query := by
  have hnone : ∀ c ∈ (none : Option Command), ∃ query, c = .search query :=
    fun _ hc => absurd hc (by simp)
  cases input with
  | received c => exact ⟨s.mode, _, s.searchDirection, s.lastSearch, .inl rfl, rfl, hnone⟩
  | key press =>
    simp only [searchInput, searchPress, submitSearch]
    split
    · exact ⟨.normal, none, none, s.lastSearch, .inr rfl, rfl, hnone⟩
    · split
      · split
        · exact ⟨.normal, none, none, s.lastSearch, .inr rfl, rfl, hnone⟩
        · refine ⟨.normal, s.searchPattern, _, _, .inr rfl, rfl, ?_⟩
          rintro c hc
          exact ⟨_, (Option.some.inj hc).symm⟩
      · split
        · exact ⟨s.mode, _, s.searchDirection, s.lastSearch, .inl rfl, rfl, hnone⟩
        · split
          · exact ⟨s.mode, _, s.searchDirection, s.lastSearch, .inl rfl, rfl, hnone⟩
          · exact ⟨s.mode, s.searchPattern, s.searchDirection, s.lastSearch, .inl rfl, rfl, hnone⟩

end State

/-! ## 4. News -/

/-- The command is news of the state. -/
def Command.IsNews : Command → Prop
  | .selectionChange _ | .modeChange _ | .bufferUpdate _ => True
  | _ => False

/-- Leaving a mode is news. -/
theorem State.modeChange_mem_news {s t : State} (h : t.mode ≠ s.mode) :
    .modeChange t.mode ∈ news s t := by
  unfold news
  rw [if_pos h]
  simp

theorem State.isNews_of_mem {s t : State} {c : Command} (h : c ∈ news s t) : c.IsNews := by
  unfold news at h
  rcases List.mem_append.mp h with h | h
  · rcases List.mem_append.mp h with h | h
    all_goals
      split at h
      · obtain rfl := List.mem_singleton.mp h
        trivial
      · exact absurd h (by simp)
  · split at h
    · obtain rfl := List.mem_singleton.mp h
      trivial
    · exact absurd h (by simp)

end ModalStack
