/-
# A search, from its first key to its last

A search is typed in a mode of its own, and what is typed there is pattern, whatever it would be
elsewhere: command keys, digits, text that the engine would leave to the host.  So the search is
transparent (`Engine.Waits.search_transparent`): from the key that begins it to the enter key or
the escape that ends it the pattern grows by what was typed, the host is asked for the search once
it is submitted, and all else is as if one command had been executed.

An input in a search either edits the pattern and does nothing else (`Input.Edits`), or ends the
search.  A run of edits is their composition, and nobody hears of it (`Engine.run_edits`).  The
first key and the last are single steps, so the session is put together from three parts.
-/
import Mathlib.Data.List.Forall2
import ModalStack.Proofs.Escaping
import ModalStack.Proofs.ReceivedText
import ModalStack.Proofs.TypedText

namespace ModalStack

/-! ## 1. Inputs that edit the pattern -/

/-- In a search the input edits the pattern, and does nothing else. -/
def Input.Edits (segmentation : Text.Segmentation) (input : Input) (edit : String → String) :
    Prop :=
  ∀ (s : State) (pattern : String), s.searchPattern = some pattern →
    s.searchInput input segmentation = ({ s with searchPattern := some (edit pattern) }, none)

/-- A character that is no control character goes to the end of the pattern, pressed or
received. -/
theorem Input.edits_of_plain {input : Input} {c : Char} (hinput : input.press = .plain c)
    (hc : isControl c = false) (segmentation : Text.Segmentation) :
    input.Edits segmentation fun pattern => pattern ++ String.singleton c := by
  intro s pattern hpattern
  have hgrown : s.appendToPattern (String.singleton c)
      = { s with searchPattern := some (pattern ++ String.singleton c) } := by
    rw [State.appendToPattern, hpattern]
    rfl
  cases input with
  | key press =>
    obtain rfl : press = .plain c := hinput
    rw [State.searchInput_plain, hc, if_neg (by simp), hgrown]
  | received d =>
    obtain rfl : d = c := by simpa [Input.press, KeyPress.plain] using hinput
    rw [State.searchInput, hgrown]

namespace Engine

variable {η : Type} {e : Engine η} {pattern : String}

/-- Inputs delivered in their contexts, one after the other. -/
def delivering (inputs : List (Input × Context)) : List Operation :=
  inputs.map fun i => .event i.1 i.2

/-- Of an edit there is nothing to tell. -/
theorem handleEvent_edits {input : Input} {edit : String → String} (hmode : e.state.mode = .search)
    (hpattern : e.state.searchPattern = some pattern) (h : input.Edits e.settings.segmentation edit)
    (context : Context) :
    e.handleEvent input context
      = ({ e with state := { e.state with searchPattern := some (edit pattern) } }, e.sent []) := by
  have htakes : e.state.takes context input.press = true := by simp only [State.takes, hmode]
  simp only [handleEvent, htakes, if_true, State.step, State.react_of_search hmode,
    h e.state pattern hpattern, State.news]
  simp

/-- **A run of edits** composes them, in any contexts, and sends nothing. -/
theorem run_edits {segmentation : Text.Segmentation} {inputs : List (Input × Context)}
    {edits : List (String → String)}
    (h : List.Forall₂ (fun i edit => i.1.Edits segmentation edit) inputs edits)
    (hsegmentation : e.settings.segmentation = segmentation)
    (hmode : e.state.mode = .search) (hpattern : e.state.searchPattern = some pattern) :
    (e.run (delivering inputs)).state
        = { e.state with searchPattern := some (edits.foldl (fun p edit => edit p) pattern) } ∧
      e.sending (delivering inputs) = [] := by
  induction h generalizing e pattern with
  | nil =>
    refine ⟨?_, rfl⟩
    rw [List.foldl_nil, ← hpattern]
    rfl
  | @cons i edit rest edits hi _ ih =>
    have hstep := handleEvent_edits hmode hpattern (hsegmentation ▸ hi) i.2
    obtain ⟨hstate, hsending⟩ := @ih (e.handleEvent i.1 i.2).1 (edit pattern)
      (by rw [hstep]; exact hsegmentation) (by rw [hstep]; exact hmode) (by rw [hstep])
    rw [delivering, List.map_cons, ← delivering, run, sending, perform, hstate, hsending, hstep]
    exact ⟨rfl, rfl⟩

end Engine

/-! ## 2. The first key -/

/-- The key that begins a search. -/
def Direction.key : Direction → Char
  | .forward => '/'
  | .backward => '?'

/-- The action under that key. -/
def Direction.action : Direction → Action
  | .forward => ⟨"search_forward", Action.search .forward⟩
  | .backward => ⟨"search_backward", Action.search .backward⟩

/-- A search is being typed that the key for its direction began. -/
def State.searching (s : State) (direction : Direction) (pattern : String) : State :=
  { s with
    mode := .search
    pendingCount := none
    lastCommand := some (String.singleton direction.key)
    tick := wrap (s.tick + 1)
    searchPattern := some pattern
    searchDirection := some direction }

theorem Keymap.resolveKeys_search (direction : Direction) :
    Keymap.defaultNormal.resolveKeys [String.singleton direction.key]
      = .resolved (.bare direction.action (String.singleton direction.key)) := by
  cases direction with
  | forward => rfl
  | backward => rfl

namespace Engine.Waits

variable {η : Type} {setup : Setup} {e : Engine η}

/-- Beginning a search is no change that could be repeated. -/
theorem execute_search (h : e.Waits setup) (direction : Direction) :
    e.state.execute e.settings (.bare direction.action (String.singleton direction.key))
      = (e.state.searching direction "", none) := by
  have hforgets : ¬ Change.isRepeatable (String.singleton direction.key) = true := by
    cases direction with
    | forward => decide +kernel
    | backward => decide +kernel
  have hreaction : (Resolved.bare direction.action (String.singleton direction.key)).reaction
      e.state e.settings = .move (e.state.startSearch direction) := by
    cases direction with
    | forward => rfl
    | backward => rfl
  refine Prod.ext ?_ ?_
  · rw [State.execute_fst, hreaction, Resolved.bare, if_neg hforgets]
    simp [Reaction.after, Reaction.move, State.startSearch, State.clearBuffer, State.searching,
      h.buffer, h.idle.keys, h.selection_eq_none]
  · rw [State.execute_snd, hreaction]
    rfl

/-- **The first key** of a search, pressed or received on the stack. -/
theorem run_search_key (h : e.Waits setup) {direction : Direction} {first : Input}
    (hfirst : first.press = .plain direction.key) :
    (e.run [.event first .stack]).state = e.state.searching direction "" ∧
      e.asked [.event first .stack] = [] := by
  have hk : e.keymaps = .default := h.reachable.keymaps.trans h.keymaps
  have htakes : e.state.takes .stack first.press = true := by
    rw [hfirst]
    refine State.takes_of_not_text (.inl h.mode) ?_
    cases direction with
    | forward => decide
    | backward => decide
  have hreact : e.state.react .default e.settings first
      = (e.state.searching direction "", none) := by
    have hkeymap : Keymaps.default.forMode? e.state.mode = some .defaultNormal := by
      rw [h.mode]
      rfl
    have htoken : first.press.token = String.singleton direction.key := by
      rw [hfirst, KeyPress.token_plain]
    have hescape : String.singleton direction.key ≠ escapeToken := by
      cases direction with
      | forward => decide
      | backward => decide
    have hgathers : e.state.gathers = true := State.gathers_iff.mpr (.inl h.mode)
    rw [State.react_eq_token hkeymap, htoken, ← h.execute_search direction]
    simp [State.token, hgathers, hescape, State.gather, h.idle.keys, Keymap.resolveKeys_search]
  obtain ⟨hstate, hasked⟩ := Engine.event_taken hk htakes
  rw [hreact] at hstate hasked
  exact ⟨hstate, hasked⟩

end Engine.Waits

/-! ## 3. What is typed -/

/-- Characters are typed by inputs that amount to their presses. -/
theorem Input.edits_of_typed {inputs : List (Input × Context)} {cs : List Char}
    (h : inputs.map (fun i => i.1.press) = cs.map .plain) (hcs : ∀ c ∈ cs, isControl c = false)
    (segmentation : Text.Segmentation) :
    List.Forall₂ (fun i edit => i.1.Edits segmentation edit) inputs
      (cs.map fun c pattern => pattern ++ String.singleton c) := by
  induction cs generalizing inputs with
  | nil =>
    obtain rfl : inputs = [] := by simpa using h
    exact .nil
  | cons c rest ih =>
    obtain ⟨i, inputs, rfl⟩ := List.exists_cons_of_ne_nil (l := inputs) (by rintro rfl; simp at h)
    obtain ⟨hi, hrest⟩ := List.cons.inj h
    obtain ⟨hc, hcs'⟩ := List.forall_mem_cons.mp hcs
    exact .cons (edits_of_plain hi hc _) (ih hrest hcs')

theorem foldl_typed (cs : List Char) (pattern : String) :
    (cs.map fun c pattern => pattern ++ String.singleton c).foldl (fun p edit => edit p) pattern
      = pattern ++ String.ofList cs := by
  induction cs generalizing pattern with
  | nil => simp
  | cons c rest ih =>
    rw [List.map_cons, List.foldl_cons, ih, ← String.toList_inj]
    simp

/-! ## 4. The last key -/

namespace State

variable {s : State} {direction : Direction} {pattern : String} {press : KeyPress}

theorem searching_enter (hpress : press.code = .enter) (hpattern : pattern ≠ "")
    (segmentation : Text.Segmentation) :
    (s.searching direction pattern).searchInput (.key press) segmentation =
      ({ s.searching direction pattern with
          mode := .normal
          lastSearch := some ⟨pattern, direction⟩ },
        some (.search ⟨pattern, direction⟩)) := by
  simp [searchInput, searchPress, abandonsSearch, hpress, submitSearch, currentQuery, searching,
    hpattern]

end State

/-! ## 5. The session -/

namespace Engine.Waits

variable {η : Type} {setup : Setup} {e : Engine η} {direction : Direction} {first : Input}
  {cs : List Char} {inputs : List (Input × Context)}

/-- **Up to the last key** a search is being typed, and nothing is asked for. -/
theorem run_typed (h : e.Waits setup) (hfirst : first.press = .plain direction.key)
    (hinputs : inputs.map (fun i => i.1.press) = cs.map .plain)
    (hcs : ∀ c ∈ cs, isControl c = false) :
    (e.run (.event first .stack :: delivering inputs)).state
        = e.state.searching direction (String.ofList cs) ∧
      e.asked (.event first .stack :: delivering inputs) = [] := by
  obtain ⟨hstate, hasked⟩ := h.run_search_key hfirst
  have hmode : (e.run [.event first .stack]).state.mode = .search := by rw [hstate]; rfl
  have hpattern : (e.run [.event first .stack]).state.searchPattern = some "" := by
    rw [hstate]
    rfl
  obtain ⟨htyped, hsending⟩ := run_edits (Input.edits_of_typed hinputs hcs _) rfl hmode hpattern
  rw [← List.singleton_append, run_append, asked_append, hasked, asked, hsending, htyped, hstate,
    foldl_typed, String.empty_append]
  exact ⟨rfl, rfl⟩

/-- The last key is typed into that search. -/
theorem run_ended (h : e.Waits setup) (hfirst : first.press = .plain direction.key)
    (hinputs : inputs.map (fun i => i.1.press) = cs.map .plain)
    (hcs : ∀ c ∈ cs, isControl c = false) (last : Input) (context : Context) :
    let session := .event first .stack :: delivering inputs ++ [.event last context]
    let result :=
      (e.state.searching direction (String.ofList cs)).searchInput last e.settings.segmentation
    (e.run session).state = result.1 ∧ e.asked session = result.2.toList := by
  intro session result
  obtain ⟨hstate, hasked⟩ := h.run_typed hfirst hinputs hcs
  have hmode : (e.run (.event first .stack :: delivering inputs)).state.mode = .search := by
    rw [hstate]
    rfl
  have hk : (e.run (.event first .stack :: delivering inputs)).keymaps = .default := by
    rw [e.run_keymaps, h.reachable.keymaps, h.keymaps]
  have htakes : (e.run (.event first .stack :: delivering inputs)).state.takes context last.press
      = true := by
    simp only [State.takes, hmode]
  obtain ⟨hended, hsent⟩ := event_taken hk htakes
  rw [State.react_of_search hmode, e.run_settings, hstate] at hended hsent
  rw [run_append, asked_append, hasked, List.nil_append]
  exact ⟨hended, hsent⟩

/-- **A search is transparent.**  A reachable engine with the default keymaps waits in normal mode
with nothing half typed.  On the stack comes the key for a search, then characters, at least one
and no control characters among them, each pressed or received and in any context.  If the enter
key follows, the host has been asked for that search and nothing else, and the engine is back in
normal mode: a count that was set is spent, one command is on record, the search is remembered, and
all else is as it was.  If an escape follows, the host has been asked for nothing, and the search
remembered is the one from before. -/
theorem search_transparent (h : e.Waits setup) (direction : Direction) {first : Input}
    (hfirst : first.press = .plain direction.key) {cs : List Char} (hne : cs ≠ [])
    (hcs : ∀ c ∈ cs, isControl c = false) {inputs : List (Input × Context)}
    (hinputs : inputs.map (fun i => i.1.press) = cs.map .plain) {enter escape : KeyPress}
    (henter : enter.code = .enter) (hescape : escape.category = .escape) (context : Context) :
    let typed := .event first .stack :: delivering inputs
    let submitted := typed ++ [.event (.key enter) context]
    let abandoned := typed ++ [.event (.key escape) context]
    let query : Query := ⟨String.ofList cs, direction⟩
    let after : State :=
      { e.state with
        pendingCount := none
        lastCommand := some (String.singleton direction.key)
        tick := wrap (e.state.tick + 1) }
    (e.asked submitted = [.search query] ∧ (e.run submitted).state.mode = .normal ∧
        (e.run submitted).state =
          { after with
            searchPattern := some query.pattern
            searchDirection := some direction
            lastSearch := some query }) ∧
      e.asked abandoned = [] ∧ (e.run abandoned).state.mode = .normal ∧
        (e.run abandoned).state
          = { after with searchPattern := none, searchDirection := none } := by
  intro typed submitted abandoned query after
  have hpattern : String.ofList cs ≠ "" := by simpa using hne
  constructor
  · obtain ⟨hstate, hasked⟩ := h.run_ended hfirst hinputs hcs (.key enter) context
    rw [State.searching_enter henter hpattern] at hstate hasked
    refine ⟨hasked, by rw [hstate], ?_⟩
    rw [hstate]
    simp [State.searching, after, query, h.mode]
  · obtain ⟨hstate, hasked⟩ := h.run_ended hfirst hinputs hcs (.key escape) context
    rw [State.searchInput_escape hescape] at hstate hasked
    refine ⟨hasked, by rw [hstate]; rfl, ?_⟩
    rw [hstate]
    simp [State.cancelSearch, State.searching, after, h.mode]

/-- A count is set and a search is remembered.  The next one looks for a text that would delete an
item and name a register on the stack; part of it is received, and part of it is typed in a cell and
in a dialog. -/
theorem search_transparent_of_commands :
    let e : Engine Unit :=
      (Setup.start { depth := 3 }).run (typing ['j', '/', 'x'] ++
        [.event (.key { code := .enter }) .stack, .setPendingCount (some 7)])
    let first : Input := .received '?'
    let cs := ['d', 'd', '"', '[', 'é']
    let inputs : List (Input × Context) :=
      [(.key (.plain 'd'), .stack), (.received 'd', .cell), (.key (.plain '"'), .dialog),
        (.key (.plain '['), .stack), (.received 'é', .stack)]
    let enter : KeyPress := { code := .enter, mods := { ctrl := true } }
    let escape : KeyPress := { code := .char '[', mods := { ctrl := true } }
    (e.Waits { depth := 3 } ∧ e.state.pendingCount = some 7 ∧
        e.state.lastSearch = some ⟨"x", .forward⟩ ∧ (first.press = .plain Direction.backward.key) ∧
        cs ≠ [] ∧ (∀ c ∈ cs, isControl c = false) ∧
        inputs.map (fun i => i.1.press) = cs.map .plain ∧ enter.code = .enter ∧
        escape.category = .escape) ∧
      let typed := .event first .stack :: delivering inputs
      let submitted := typed ++ [.event (.key enter) .widget]
      let abandoned := typed ++ [.event (.key escape) .widget]
      let query : Query := ⟨String.ofList cs, .backward⟩
      let after : State :=
        { e.state with
          pendingCount := none
          lastCommand := some (String.singleton Direction.backward.key)
          tick := wrap (e.state.tick + 1) }
      (e.asked submitted = [.search query] ∧ (e.run submitted).state.mode = .normal ∧
        (e.run submitted).state =
          { after with
            searchPattern := some query.pattern
            searchDirection := some .backward
            lastSearch := some query }) ∧
      e.asked abandoned = [] ∧ (e.run abandoned).state.mode = .normal ∧
        (e.run abandoned).state
          = { after with searchPattern := none, searchDirection := none } := by
  intro e first cs inputs enter escape
  have hwaits : e.Waits { depth := 3 } :=
    ⟨rfl, Reachable.start.run _, by decide +kernel, by decide +kernel⟩
  have hfirst : first.press = .plain Direction.backward.key := rfl
  have hne : cs ≠ [] := List.cons_ne_nil _ _
  have hcs : ∀ c ∈ cs, isControl c = false := by simp [cs, isControl]
  have hinputs : inputs.map (fun i => i.1.press) = cs.map .plain := rfl
  have henter : enter.code = .enter := rfl
  have hescape : escape.category = .escape := by decide
  refine ⟨⟨hwaits, by decide +kernel, by decide +kernel, hfirst, hne, hcs, hinputs, henter,
    hescape⟩, ?_⟩
  exact hwaits.search_transparent .backward hfirst hne hcs hinputs henter hescape .widget

end Engine.Waits

end ModalStack
