/-
# One command or none

In normal and visual mode an input either completes a command or does not, whatever the keymaps
bind and whatever their actions do.  If it does, the command runs, and what an action may have
left half typed, counted or stamped is overwritten: nothing is typed, no count waits, and the
command is on record with all its keys.  If it does not, nothing of the state has changed but what
is half typed, and that has grown by the one token or is dropped; a waiting count goes with an
escape that the keymap does not bind (`State.step_atomic`).

Which of the two it is depends on the keymap and the keys alone (`State.Runs`), and so does the
command: the same keys never mean two (`State.Runs.unique`).
-/
import ModalStack.Proofs.Turns

namespace ModalStack

/-! ## 1. The command that a token completes -/

/-- What resolves has everything that was typed on record: the keys, the register prefix that was
split off them, and the body behind it. -/
theorem Keymap.exists_of_resolveKeys {m : Keymap} {keys : List String} {r : Resolved}
    (h : m.resolveKeys keys = .resolved r) :
    ∃ body, splitRegisterKeys keys = .split r.register body ∧
      m.resolveBody (joinTokens keys) r.register body = .resolved r ∧
      r.raw = joinTokens keys ∧ r.body = joinTokens body := by
  unfold resolveKeys at h
  split at h
  · exact absurd h (by simp)
  · exact absurd h (by simp)
  · rename_i register body hsplit
    have hfields : r.register = register ∧ r.raw = joinTokens keys ∧ r.body = joinTokens body := by
      simp only [resolveBody] at h
      split at h
      · obtain rfl := Resolution.resolved.inj h
        exact ⟨rfl, rfl, rfl⟩
      · split at h
        · exact absurd h (by simp)
        · split at h
          · obtain rfl := Resolution.resolved.inj h
            exact ⟨rfl, rfl, rfl⟩
          · exact absurd h (by simp)
          · exact absurd h (by simp)
    obtain ⟨rfl, hraw, hbody⟩ := hfields
    exact ⟨body, hsplit, h, hraw, hbody⟩

/-- The token completes a command.  Where keys are gathered it does so together with what was
typed before it; an escape, and every token of the other modes, stands alone. -/
inductive State.Runs (s : State) (m : Keymap) (t : String) : Resolved → Prop
  | together {r : Resolved} : s.gathers = true → t ≠ escapeToken →
      m.resolveKeys (s.keys ++ [t]) = .resolved r → Runs s m t r
  | alone {a : Action} : s.gathers = false ∨ t = escapeToken → m.action? t = some a →
      Runs s m t (.bare a t)

namespace State

variable {s : State} {keymaps : Keymaps} {m : Keymap} {settings : Settings} {input : Input}
  {t : String} {r r' : Resolved}

/-- A token of a mode that gathers keys, other than the escape, does not stand alone. -/
theorem not_alone (hg : s.gathers = true) (ht : t ≠ escapeToken) :
    ¬ (s.gathers = false ∨ t = escapeToken) := by
  rintro (hfalse | hescape)
  · exact absurd hg (by simp [hfalse])
  · exact ht hescape

/-- **The keys determine the command.** -/
theorem Runs.unique (h : s.Runs m t r) (h' : s.Runs m t r') : r = r' := by
  cases h with
  | together hg ht hr =>
    cases h' with
    | together _ _ hr' => exact Resolution.resolved.inj (hr.symm.trans hr')
    | alone halone _ => exact absurd halone (not_alone hg ht)
  | alone halone ha =>
    cases h' with
    | together hg ht _ => exact absurd halone (not_alone hg ht)
    | alone _ ha' => rw [Option.some.inj (ha.symm.trans ha')]

/-- The command that is completed runs. -/
theorem Runs.token_eq (h : s.Runs m t r) : s.token m settings t = s.execute settings r := by
  cases h with
  | together hg ht hr => simp [State.token, hg, ht, gather, hr]
  | alone halone ha =>
    have hlookUp : (s.gathers && t != escapeToken) = false := by
      rcases halone with hg | ht
      · simp [hg]
      · simp [ht]
    simp [State.token, hlookUp, lookUp, ha]

theorem Runs.react_eq (hm : keymaps.forMode? s.mode = some m)
    (h : s.Runs m input.press.token r) :
    s.react keymaps settings input = s.execute settings r := by
  rw [react_eq_token hm, h.token_eq]

/-- What a token does that completes no command: it is gathered, it drops what was gathered, it is
an escape that is not bound, or it means nothing in a mode that gathers no keys. -/
theorem token_of_not_runs (hnone : ∀ r, ¬ s.Runs m t r) (settings : Settings) :
    s.token m settings t =
        ({ s with buffer := joinTokens (s.keys ++ [t]), keys := s.keys ++ [t] }, none) ∨
      s.token m settings t = (s.clearBuffer, none) ∨
      (s.token m settings t = ({ s.clearBuffer with pendingCount := none }, none) ∧
        t = escapeToken ∧ m.action? escapeToken = none) ∨
      (s.token m settings t = (s, none) ∧ s.gathers = false) := by
  unfold State.token
  split
  · rename_i htogether
    obtain ⟨hg, ht⟩ := (Bool.and_eq_true _ _).mp htogether
    simp only [gather]
    split
    · rename_i r hr
      exact absurd (.together hg (by simpa using ht) hr) (hnone r)
    · exact .inl rfl
    · exact .inr (.inl rfl)
  · rename_i hlookUp
    have halone : s.gathers = false ∨ t = escapeToken := by
      cases hg : s.gathers with
      | false => exact .inl rfl
      | true => exact .inr (by simpa [hg] using hlookUp)
    have ha : m.action? t = none :=
      Option.eq_none_iff_forall_ne_some.mpr fun a ha => hnone _ (.alone halone ha)
    simp only [lookUp, ha]
    split
    · rename_i ht
      exact .inr (.inr (.inl ⟨rfl, ht, ht ▸ ha⟩))
    · rename_i ht
      exact .inr (.inr (.inr ⟨rfl, halone.resolve_right ht⟩))

/-- All keys of the command are on record; of an escape, the escape alone. -/
theorem Runs.raw (h : s.Runs m t r) (hg : s.gathers = true)
    (hbuffer : s.buffer = joinTokens s.keys) :
    r.raw = if t = escapeToken then escapeToken else s.buffer ++ t := by
  cases h with
  | together _ ht hr =>
    obtain ⟨_, _, _, hraw, _⟩ := Keymap.exists_of_resolveKeys hr
    rw [if_neg ht, hraw, hbuffer, ← String.toList_inj]
    simp [toList_joinTokens]
  | alone halone ha =>
    have ht : t = escapeToken := halone.resolve_left (by simp [hg])
    rw [if_pos ht, ← ht]
    rfl

/-! ## 2. One step -/

/-- The token ran a command: what was typed is spent, and the command is on record with all its
keys and counted. -/
structure Ran (s : State) (t : String) (next : State) : Prop where
  buffer : next.buffer = ""
  keys : next.keys = []
  pendingCount : next.pendingCount = none
  lastCommand : next.lastCommand = some (if t = escapeToken then escapeToken else s.buffer ++ t)
  tick : next.tick = (s.tick + 1) % wordSize

/-- The token ran nothing: at most what is half typed is different. -/
structure Waited (s : State) (m : Keymap) (t : String) (next : State) : Prop where
  rest : next =
    { s with buffer := next.buffer, keys := next.keys, pendingCount := next.pendingCount }
  typed : (next.buffer = s.buffer ++ t ∧ next.keys = s.keys ++ [t]) ∨
    (next.buffer = "" ∧ next.keys = [])
  pendingCount : next.pendingCount = s.pendingCount ∨
    (next.pendingCount = none ∧ t = escapeToken ∧ m.action? escapeToken = none)

theorem Runs.ran (h : s.Runs m t r) (hg : s.gathers = true) (hbuffer : s.buffer = joinTokens s.keys)
    (settings : Settings) : s.Ran t (s.execute settings r).1 where
  buffer := execute_buffer
  keys := execute_keys
  pendingCount := by rw [execute_fst]
  lastCommand := by rw [execute_fst, ← h.raw hg hbuffer]
  tick := by rw [execute_fst]; rfl

/-- Where keys are gathered, a token that completes no command goes on what is half typed, or
drops it. -/
theorem waited_of_not_runs (hg : s.gathers = true) (hbuffer : s.buffer = joinTokens s.keys)
    (hnone : ∀ r, ¬ s.Runs m t r) (settings : Settings) :
    s.Waited m t (s.token m settings t).1 ∧ (s.token m settings t).2 = none := by
  rcases token_of_not_runs hnone settings with heq | heq | ⟨heq, ht, ha⟩ | ⟨-, hfalse⟩
  · have hgrown : joinTokens (s.keys ++ [t]) = s.buffer ++ t := by
      rw [hbuffer, ← String.toList_inj]
      simp [toList_joinTokens]
    rw [heq]
    exact ⟨⟨rfl, .inl ⟨hgrown, rfl⟩, .inl rfl⟩, rfl⟩
  · rw [heq]
    exact ⟨⟨rfl, .inr ⟨rfl, rfl⟩, .inl rfl⟩, rfl⟩
  · rw [heq]
    exact ⟨⟨rfl, .inr ⟨rfl, rfl⟩, .inr ⟨rfl, ht, ha⟩⟩, rfl⟩
  · exact absurd hg (by simp [hfalse])

/-- A mode that gathers keys has a keymap. -/
theorem exists_forMode? (hmode : s.mode.Gathers) (keymaps : Keymaps) :
    ∃ m, keymaps.forMode? s.mode = some m := by
  rcases hmode with h | h
  · exact ⟨keymaps.normal, by rw [h]; rfl⟩
  · exact ⟨keymaps.visual, by rw [h]; rfl⟩

/-- **A step runs one command or none.**  In normal or visual mode, with tokens and text of the
half-typed command in agreement, whatever the keymaps bind and whatever is typed: either the keys
complete a command, just one, and then it runs and leaves nothing typed; or they complete none, and
then nothing is said but news of the buffer, and nothing is different but what is half typed. -/
theorem step_atomic (hmode : s.mode.Gathers) (hbuffer : s.buffer = joinTokens s.keys)
    (keymaps : Keymaps) (settings : Settings) (input : Input) :
    let t := input.press.token
    let next := (s.step keymaps settings input).1
    let commands := (s.step keymaps settings input).2
    ∃ m, keymaps.forMode? s.mode = some m ∧
      ((∃ r, s.Runs m t r ∧ (∀ r', s.Runs m t r' → r' = r) ∧
          next = (s.execute settings r).1 ∧
          commands = (s.execute settings r).2.toList ++ news s next ∧
          s.Ran t next) ∨
        ((∀ r, ¬ s.Runs m t r) ∧
          (∀ c ∈ commands, c = .bufferUpdate next.buffer) ∧
          s.Waited m t next)) := by
  intro t next commands
  have hg : s.gathers = true := by
    rcases hmode with h | h
    · simp [gathers, h]
    · simp [gathers, h]
  obtain ⟨m, hm⟩ := exists_forMode? hmode keymaps
  refine ⟨m, hm, ?_⟩
  by_cases hruns : ∃ r, s.Runs m t r
  · obtain ⟨r, hr⟩ := hruns
    have hreact : s.react keymaps settings input = s.execute settings r := hr.react_eq hm
    have hnext : next = (s.execute settings r).1 := by
      rw [← hreact]
      rfl
    refine .inl ⟨r, hr, fun _ hr' => hr'.unique hr, hnext, ?_, ?_⟩
    · rw [← hreact]
      rfl
    · rw [hnext]
      exact hr.ran hg hbuffer settings
  · have hnone : ∀ r, ¬ s.Runs m t r := fun r hr => hruns ⟨r, hr⟩
    obtain ⟨hwaited, hsent⟩ := waited_of_not_runs hg hbuffer hnone settings
    have hreact : s.react keymaps settings input = s.token m settings t := react_eq_token hm
    rw [← hreact] at hwaited hsent
    refine .inr ⟨hnone, ?_, hwaited⟩
    intro c hc
    -- neither the selection nor the mode is different, so the buffer is all there is to tell
    have hnews : commands = news s next := by
      show (s.react keymaps settings input).2.toList ++ news s next = news s next
      rw [hsent]
      rfl
    have hrest : next.selection = s.selection ∧ next.mode = s.mode := by
      have heq : next = _ := hwaited.rest
      rw [heq]
      exact ⟨rfl, rfl⟩
    rw [hnews] at hc
    simp only [news, hrest.1, hrest.2, ne_eq, not_true_eq_false, if_false, List.nil_append] at hc
    split at hc
    · exact List.mem_singleton.mp hc
    · exact absurd hc (by simp)

/-- The action that runs answers with a state in which something is half typed, no command is on
record and the clock stands still.  None of this is left, though the rest of its answer is. -/
theorem step_atomic_of_overbearing_action :
    let junk : State :=
      { buffer := "x", keys := ["x"], pendingCount := some 9, position := 2, tick := 5 }
    let keymaps : Keymaps :=
      { Keymaps.default with visual := ⟨"visual", [("z", .action ⟨"junk", fun _ => .move junk⟩)]⟩ }
    let s : State :=
      { mode := .visual
        buffer := "\"a3"
        keys := ["\"", "a", "3"]
        pendingCount := some 7
        tick := wordSize - 1 }
    let input : Input := .received 'z'
    let t := input.press.token
    let next := (s.step keymaps {} input).1
    let commands := (s.step keymaps {} input).2
    (s.mode.Gathers ∧ s.buffer = joinTokens s.keys) ∧
      next = { junk with
        buffer := "", keys := [], pendingCount := none, lastCommand := some "\"a3z", tick := 0 } ∧
      ∃ m, keymaps.forMode? s.mode = some m ∧
        ((∃ r, s.Runs m t r ∧ (∀ r', s.Runs m t r' → r' = r) ∧
            next = (s.execute {} r).1 ∧
            commands = (s.execute {} r).2.toList ++ news s next ∧
            s.Ran t next) ∨
          ((∀ r, ¬ s.Runs m t r) ∧
            (∀ c ∈ commands, c = .bufferUpdate next.buffer) ∧
            s.Waited m t next)) := by
  intro junk keymaps s input t next commands
  have hmode : s.mode.Gathers := .inr rfl
  have hbuffer : s.buffer = joinTokens s.keys := by decide +kernel
  exact ⟨⟨hmode, hbuffer⟩, by decide +kernel, step_atomic hmode hbuffer keymaps {} input⟩

end State

end ModalStack
