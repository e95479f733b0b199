/-
# What a listener knows

A listener that was shown the engine once may try to keep up with it by the news alone: it
takes over every mode, buffer and selection that it hears of.  As long as keys are typed this
works, since a step tells of all that it changed, and no other command reads like news
(`State.view_hearAll_step`).

It does not always work, because what a host does besides typing is told in part only.  A
report of the depth may cut the selection short, and sends nothing.  A submitted command line
drops the selection and what was half typed, and tells of the mode alone.  These are the silent
operations (`Engine.Operation.Silent`), and there are no others: a listener knows the state
after every operation of a run exactly if none of them was silent
(`Engine.Reachable.listener_in_step_iff`).
-/
import ModalStack.Proofs.Origins

namespace ModalStack

/-! ## 1. Deliveries to one listener -/

section

variable {η : Type} [DecidableEq η]

/-- The commands that one listener hears. -/
def heardBy (listener : η) (deliveries : List (Delivery η)) : List Command :=
  (deliveries.filter fun d => d.handler = listener).map Delivery.command

/-- The listener is registered, and under one id only. -/
def Listeners.HearsOnce (l : Listeners η) (listener : η) : Prop :=
  (l.handlers.entries.filter fun e => e.2 = listener).length = 1

theorem Listeners.HearsOnce.heardBy_deliver {l : Listeners η} {listener : η}
    (h : l.HearsOnce listener) (c : Command) : heardBy listener (l.deliver c) = [c] := by
  obtain ⟨e, he⟩ := List.length_eq_one_iff.mp h
  have hfilter : (l.deliver c).filter (fun d => d.handler = listener)
      = (l.handlers.entries.filter fun e => e.2 = listener).map
          fun e => ⟨e.2, c, l.hasFocus e.1⟩ := by
    rw [deliver, List.filter_map]
    rfl
  rw [heardBy, hfilter, he]
  rfl

/-- **What is published is heard**, each command once and in order. -/
theorem Listeners.HearsOnce.heardBy_deliverAll {l : Listeners η} {listener : η}
    (h : l.HearsOnce listener) (commands : List Command) :
    heardBy listener (l.deliverAll commands) = commands := by
  induction commands with
  | nil => rfl
  | cons c rest ih =>
    have hsplit : heardBy listener (l.deliverAll (c :: rest))
        = heardBy listener (l.deliver c) ++ heardBy listener (l.deliverAll rest) := by
      simp only [heardBy, deliverAll, List.flatMap_cons, List.filter_append, List.map_append]
    rw [hsplit, h.heardBy_deliver c, ih]
    rfl

end

/-! ## 2. A view kept by news -/

/-- What a listener knows of the engine. -/
structure View where
  mode : Mode
  buffer : String
  selection : Option Selection
  deriving DecidableEq

/-- What there is to know of a state. -/
def State.view (s : State) : View := ⟨s.mode, s.buffer, s.selection⟩

/-- The same, as a host is shown it. -/
def Snapshot.view (shown : Snapshot) : View := ⟨shown.mode, shown.buffer, shown.selection⟩

namespace View

/-- News replace what was known, and other commands say nothing about it. -/
def hear (v : View) : Command → View
  | .modeChange mode => { v with mode := mode }
  | .bufferUpdate buffer => { v with buffer := buffer }
  | .selectionChange selection => { v with selection := selection }
  | _ => v

/-- Commands are heard one after the other. -/
def hearAll (v : View) (commands : List Command) : View := commands.foldl hear v

variable {v : View} {c : Command}

theorem hearAll_append (v : View) (first second : List Command) :
    v.hearAll (first ++ second) = (v.hearAll first).hearAll second :=
  List.foldl_append

theorem hear_eq_self (h : ¬ c.IsNews) : v.hear c = v := by
  cases c with
  | modeChange _ | bufferUpdate _ | selectionChange _ => exact absurd trivial h
  | _ => rfl

/-- A command that is no news, or none at all, is heard in vain. -/
theorem hearAll_toList {sent : Option Command} (h : ∀ c ∈ sent, ¬ c.IsNews) :
    v.hearAll sent.toList = v := by
  cases sent with
  | none => rfl
  | some c => exact hear_eq_self (h c rfl)

/-- A listener that knows a field as it was knows it as it is, whether or not it is told. -/
theorem hearAll_ite {α : Type} [DecidableEq α] {old new : α} {w : View} (hnew : v.hear c = w)
    (hold : new = old → v = w) : v.hearAll (if new ≠ old then [c] else []) = w := by
  split
  · exact hnew
  · rename_i h
    exact hold (Decidable.not_not.mp h)

end View

namespace State

/-- **News tell all that changed.** -/
theorem view_hearAll_news (s t : State) : s.view.hearAll (news s t) = t.view := by
  have hselection : s.view.hearAll
      (if t.selection ≠ s.selection then [.selectionChange t.selection] else [])
        = ⟨s.mode, s.buffer, t.selection⟩ :=
    View.hearAll_ite rfl fun h => by rw [h]; rfl
  have hmode : View.hearAll ⟨s.mode, s.buffer, t.selection⟩
      (if t.mode ≠ s.mode then [.modeChange t.mode] else [])
        = ⟨t.mode, s.buffer, t.selection⟩ :=
    View.hearAll_ite rfl fun h => by rw [h]
  have hbuffer : View.hearAll ⟨t.mode, s.buffer, t.selection⟩
      (if t.buffer ≠ s.buffer then [.bufferUpdate t.buffer] else []) = t.view :=
    View.hearAll_ite rfl fun h => by rw [← h]; rfl
  rw [news, View.hearAll_append, View.hearAll_append, hselection, hmode, hbuffer]

/-- **After a key a listener knows the state.** -/
theorem view_hearAll_step (s : State) (settings : Settings) (input : Input) :
    s.view.hearAll (s.step .default settings input).2
      = (s.step .default settings input).1.view := by
  have hsent : ∀ c ∈ (s.react .default settings input).2, ¬ c.IsNews :=
    fun c hc => (react_fromKeys hc).not_isNews
  simp only [step, View.hearAll_append, View.hearAll_toList hsent, view_hearAll_news]

end State

/-! ## 3. Silent operations -/

/-- The operation changes what a listener should know, and does not tell all of it: a depth
that the selection reaches beyond, or a command line submitted while something is selected or
half typed. -/
def Engine.Operation.Silent (s : State) : Engine.Operation → Prop
  | .setDepth depth => ∃ sel ∈ s.selection, max depth 1 < sel.high
  | .submitLine _ => s.mode = .visual ∨ s.buffer ≠ ""
  | _ => False

instance (s : State) : (op : Engine.Operation) → Decidable (op.Silent s)
  | .setDepth depth => inferInstanceAs (Decidable (∃ sel ∈ s.selection, max depth 1 < sel.high))
  | .submitLine _ => inferInstanceAs (Decidable (s.mode = .visual ∨ s.buffer ≠ ""))
  | .event .. | .setPendingCount _ | .storeRegister .. => inferInstanceAs (Decidable False)

namespace State

variable {s : State}

/-- A selection within the new depth stays as it is. -/
theorem Bounded.clamp_eq_iff (h : s.Bounded) {sel : Selection} (hsel : s.selection = some sel)
    (depth : Nat) : sel.clamp depth = sel ↔ sel.high ≤ max depth 1 := by
  have hanchor : 1 ≤ sel.anchor := (h.anchor sel hsel).1
  have hhead : 1 ≤ sel.head := by
    rw [h.head sel hsel]
    exact h.one_le
  obtain ⟨anchor, head⟩ := sel
  simp only [Selection.clamp, Selection.mk.injEq, Selection.high, clamp]
  simp only at hanchor hhead
  omega

/-- A report of the depth is silent exactly if it changes the selection. -/
theorem Bounded.withDepth_view_iff (h : s.Bounded) (depth : Nat) :
    s.view = (s.withDepth depth).view ↔ ¬ (Engine.Operation.setDepth depth).Silent s := by
  cases hsel : s.selection with
  | none => simp [State.view, State.withDepth, Engine.Operation.Silent, hsel]
  | some sel =>
    have hclamp := h.clamp_eq_iff hsel depth
    have hview : s.view = (s.withDepth depth).view ↔ sel.clamp depth = sel := by
      simp only [State.view, State.withDepth, hsel, Option.map_some, View.mk.injEq, true_and,
        Option.some.injEq]
      exact eq_comm
    have hsilent : (Engine.Operation.setDepth depth).Silent s ↔ max depth 1 < sel.high := by
      simp [Engine.Operation.Silent, hsel]
    rw [hview, hclamp, hsilent, Nat.not_lt]

/-- A submitted line is silent exactly if it drops a selection or something half typed. -/
theorem Bounded.afterLine_view_iff (h : s.Bounded) (line : String) :
    s.view.hearAll ((CommandLine.parse line).toList
        ++ (if s.mode ≠ .normal then [.modeChange .normal] else [])) = s.afterLine.view
      ↔ ¬ (Engine.Operation.submitLine line).Silent s := by
  have hparse : ∀ c ∈ CommandLine.parse line, ¬ c.IsNews := by
    intro c hc
    rcases CommandLine.parse_eq_some hc with ⟨_, rfl⟩ | ⟨_, rfl⟩ | rfl
    · exact id
    · exact id
    · exact id
  have hmode : s.view.hearAll (if s.mode ≠ .normal then [.modeChange .normal] else [])
      = ⟨.normal, s.buffer, s.selection⟩ := by
    split
    · rfl
    · rename_i hn
      rw [← Decidable.not_not.mp hn]
      rfl
  have hafter : s.afterLine.view = ⟨.normal, "", none⟩ := rfl
  have hselected : s.selection = none ↔ s.mode ≠ .visual := by
    rw [ne_eq, ← h.selected_iff]
    simp
  rw [View.hearAll_append, View.hearAll_toList hparse, hmode, hafter]
  simp only [Engine.Operation.Silent, View.mk.injEq, hselected, true_and, not_or, ne_eq,
    Decidable.not_not]
  exact And.comm

end State

namespace Engine

variable {η : Type} {e : Engine η}

/-- **Which operations a listener misses.**  An operation tells all that it changed exactly if
it is not silent. -/
theorem perform_view_iff (hk : e.keymaps = .default) (hb : e.state.Bounded) (op : Operation) :
    e.state.view.hearAll (e.perform op).2.commands = (e.perform op).1.state.view
      ↔ ¬ op.Silent e.state := by
  cases op with
  | event input context =>
    refine ⟨fun _ => id, fun _ => ?_⟩
    simp only [perform, handleEvent, hk]
    split
    · exact e.state.view_hearAll_step e.settings input
    · rfl
  | submitLine line => exact hb.afterLine_view_iff line
  | setDepth depth => exact hb.withDepth_view_iff depth
  | setPendingCount count => exact ⟨fun _ => id, fun _ => rfl⟩
  | storeRegister name items => exact ⟨fun _ => id, fun _ => rfl⟩

/-! ## 4. Runs -/

theorem perform_listeners (e : Engine η) (op : Operation) :
    (e.perform op).1.listeners = e.listeners := by
  cases op with
  | event input context =>
    simp only [perform, handleEvent]
    split <;> rfl
  | _ => rfl

/-- What an operation publishes. -/
theorem perform_deliveries (e : Engine η) (op : Operation) :
    (e.perform op).2.deliveries = e.listeners.deliverAll (e.perform op).2.commands := by
  cases op with
  | event input context =>
    simp only [perform, handleEvent]
    split
    · rfl
    · rfl
  | _ => rfl

variable [DecidableEq η]

/-- What a listener knows after some operations, if it knew `v` before. -/
def listen (listener : η) (v : View) (e : Engine η) : List Operation → View
  | [] => v
  | op :: rest =>
    listen listener (v.hearAll (heardBy listener (e.perform op).2.deliveries)) (e.perform op).1
      rest

end Engine

/-- **When a listener knows the state.**  It is shown a reachable engine with the default
keymaps once, and then takes over every mode, selection and buffer that is published, in order.
It holds those of the engine after every operation of a run exactly if no operation of the run
was silent. -/
theorem Engine.Reachable.listener_in_step_iff {η : Type} [DecidableEq η] {setup : Setup}
    {e : Engine η} (hk : setup.keymaps = .default) (hr : e.Reachable setup) {listener : η}
    (hl : e.listeners.HearsOnce listener) (ops : List Engine.Operation) :
    (∀ k, Engine.listen listener e.snapshot.view e (ops.take k)
        = (e.run (ops.take k)).snapshot.view) ↔
      ∀ k (hlt : k < ops.length), ¬ ops[k].Silent (e.run (ops.take k)).state := by
  induction ops generalizing e with
  | nil => simp [Engine.listen, Engine.run, Engine.snapshot, Snapshot.view]
  | cons op rest ih =>
    have hbounded : e.state.Bounded := hr.bounded hk
    have hfirst : e.snapshot.view.hearAll (heardBy listener (e.perform op).2.deliveries)
          = (e.perform op).1.snapshot.view ↔ ¬ op.Silent e.state := by
      rw [perform_deliveries, hl.heardBy_deliverAll]
      exact perform_view_iff (by rw [hr.keymaps, hk]) hbounded op
    have hnext : (e.perform op).1.listeners.HearsOnce listener := by
      rw [perform_listeners]
      exact hl
    have hrest := ih (hr.perform op) hnext
    constructor
    · intro hknows
      -- what is known after the first operation is where the others start from
      have hafter : e.snapshot.view.hearAll (heardBy listener (e.perform op).2.deliveries)
          = (e.perform op).1.snapshot.view := hknows 1
      intro k hlt
      cases k with
      | zero => exact hfirst.mp hafter
      | succ k =>
        refine hrest.mp ?_ k (Nat.lt_of_succ_lt_succ hlt)
        intro j
        rw [← hafter]
        exact hknows (j + 1)
    · intro hloud k
      cases k with
      | zero => rfl
      | succ k =>
        have hafter := hfirst.mpr (hloud 0 (Nat.zero_lt_succ _))
        have hknows := hrest.mpr (fun j hlt => hloud (j + 1) (Nat.succ_lt_succ hlt)) k
        rw [← hafter] at hknows
        exact hknows

/-- Two items are selected on a stack that then grows. -/
theorem Engine.Reachable.listener_of_selection :
    let e : Engine Unit :=
      { (Setup.start { depth := 5 } : Engine Unit) with
        listeners := Listeners.empty.register "view" () }
    let ops := Engine.typing ['v', 'j'] ++ [.setDepth 9]
    (e.listeners.HearsOnce () ∧
      ∀ k (hlt : k < ops.length), ¬ ops[k].Silent (e.run (ops.take k)).state) ∧
      ∀ k, Engine.listen () e.snapshot.view e (ops.take k)
        = (e.run (ops.take k)).snapshot.view := by
  intro e ops
  have hreach : e.Reachable { depth := 5 } := Engine.Reachable.start.listen _
  have hears : e.listeners.HearsOnce () := rfl
  have hloud : ∀ k (hlt : k < ops.length), ¬ ops[k].Silent (e.run (ops.take k)).state := by
    decide +kernel
  exact ⟨⟨hears, hloud⟩, (hreach.listener_in_step_iff rfl hears ops).mpr hloud⟩

/-- An empty line is submitted while an item is selected: the listener hears that visual mode
was left, and still believes in the selection. -/
theorem Engine.Reachable.listener_missed_selection :
    let e : Engine Unit :=
      { (Setup.start { depth := 3 } : Engine Unit) with
        listeners := Listeners.empty.register "view" () }
    let ops := Engine.typing ['v'] ++ [.submitLine ""]
    e.Reachable { depth := 3 } ∧ e.listeners.HearsOnce () ∧
      Engine.listen () e.snapshot.view e ops = ⟨.normal, "", some ⟨1, 1⟩⟩ ∧
      (e.run ops).snapshot.view = ⟨.normal, "", none⟩ :=
  ⟨Engine.Reachable.start.listen _, rfl, by decide +kernel, by decide +kernel⟩

end ModalStack
