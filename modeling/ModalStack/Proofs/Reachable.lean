/-
# Reachable engines

A host starts an engine from a setup and then hands it keys and lines, reports depths, counts
and registers, and changes who listens, in any order.  The engines that come about are the
reachable ones.  Keymaps and settings stay as they were set up, and whatever the operations
keep of a state holds of every reachable one (`Engine.Reachable.of_invariant`): that is the one
induction over runs.
-/
import ModalStack.Engine

namespace ModalStack

/-- The engines that a host can bring about from a setup. -/
inductive Engine.Reachable {η : Type} (setup : Setup) : Engine η → Prop
  | start : Reachable setup setup.start
  /-- The host carries out an operation. -/
  | perform {e : Engine η} (op : Engine.Operation) :
      Reachable setup e → Reachable setup (e.perform op).1
  /-- The host changes the listeners. -/
  | listen {e : Engine η} (listeners : Listeners η) :
      Reachable setup e → Reachable setup { e with listeners := listeners }

/-- The property survives everything that a host can do to the state of an engine. -/
structure State.Invariant (keymaps : Keymaps) (settings : Settings) (P : State → Prop) : Prop where
  react {s : State} (input : Input) : P s → P (s.react keymaps settings input).1
  afterLine {s : State} : P s → P s.afterLine
  withDepth {s : State} (depth : Nat) : P s → P (s.withDepth depth)
  withCount {s : State} (count : Option Nat) : P s → P { s with pendingCount := count }
  withRegisters {s : State} (registers : Table String (List String)) :
    P s → P { s with registers := registers }

namespace Engine

variable {η : Type} {setup : Setup} {e : Engine η} {P : State → Prop}

/-- Characters typed on the stack, one after the other. -/
def typing (cs : List Char) : List Operation :=
  cs.map fun c => .event (.key { code := .char c }) .stack

theorem handleEvent_state (e : Engine η) (input : Input) (context : Context) :
    (e.handleEvent input context).1.state =
      if e.state.takes context input.press then
        (e.state.react e.keymaps e.settings input).1
      else e.state := by
  unfold handleEvent
  split <;> rfl

theorem handleEvent_commands (e : Engine η) (input : Input) (context : Context) :
    (e.handleEvent input context).2.commands =
      if e.state.takes context input.press then
        (e.state.step e.keymaps e.settings input).2
      else [] := by
  unfold handleEvent
  split <;> rfl

/-- What comes of an input: a step that is published, or nothing. -/
theorem handleEvent_cases (e : Engine η) (input : Input) (context : Context) :
    (e.state.takes context input.press = true ∧
        (e.handleEvent input context).1.state
          = (e.state.step e.keymaps e.settings input).1 ∧
        (e.handleEvent input context).2.commands
          = (e.state.step e.keymaps e.settings input).2) ∨
      (e.state.takes context input.press = false ∧
        (e.handleEvent input context).1.state = e.state ∧
        (e.handleEvent input context).2.commands = []) := by
  rw [handleEvent_state, handleEvent_commands]
  cases e.state.takes context input.press with
  | true => exact .inl ⟨rfl, rfl, rfl⟩
  | false => exact .inr ⟨rfl, rfl, rfl⟩

theorem perform_keymaps (e : Engine η) (op : Operation) :
    (e.perform op).1.keymaps = e.keymaps := by
  cases op with
  | event input context =>
    simp only [perform, handleEvent]
    split <;> rfl
  | _ => rfl

theorem perform_settings (e : Engine η) (op : Operation) :
    (e.perform op).1.settings = e.settings := by
  cases op with
  | event input context =>
    simp only [perform, handleEvent]
    split <;> rfl
  | _ => rfl

theorem run_keymaps (e : Engine η) (ops : List Operation) : (e.run ops).keymaps = e.keymaps := by
  induction ops generalizing e with
  | nil => rfl
  | cons op rest ih => rw [run, ih, perform_keymaps]

theorem run_settings (e : Engine η) (ops : List Operation) :
    (e.run ops).settings = e.settings := by
  induction ops generalizing e with
  | nil => rfl
  | cons op rest ih => rw [run, ih, perform_settings]

theorem run_append (e : Engine η) (first second : List Operation) :
    e.run (first ++ second) = (e.run first).run second := by
  induction first generalizing e with
  | nil => rfl
  | cons op rest ih => exact ih _

/-- One operation keeps an invariant. -/
theorem perform_invariant (hinv : State.Invariant e.keymaps e.settings P) (op : Operation)
    (h : P e.state) : P (e.perform op).1.state := by
  cases op with
  | event input context =>
    simp only [perform, handleEvent_state]
    split
    · exact hinv.react input h
    · exact h
  | submitLine line => exact hinv.afterLine h
  | setDepth depth => exact hinv.withDepth depth h
  | setPendingCount count => exact hinv.withCount _ h
  | storeRegister name items => exact hinv.withRegisters _ h

namespace Reachable

theorem keymaps (h : e.Reachable setup) : e.keymaps = setup.keymaps := by
  induction h with
  | start => rfl
  | perform op _ ih => rw [perform_keymaps, ih]
  | listen listeners _ ih => exact ih

theorem settings (h : e.Reachable setup) : e.settings = setup.settings := by
  induction h with
  | start => rfl
  | perform op _ ih => rw [perform_settings, ih]
  | listen listeners _ ih => exact ih

/-- **The induction over runs.**  What holds of the first state and survives every operation
holds of every reachable engine. -/
theorem of_invariant (hinv : State.Invariant setup.keymaps setup.settings P)
    (hstart : P setup.state) (h : e.Reachable setup) : P e.state := by
  induction h with
  | start => exact hstart
  | perform op hr ih =>
    refine perform_invariant ?_ op ih
    rw [hr.keymaps, hr.settings]
    exact hinv
  | listen listeners _ ih => exact ih

/-- A run leads from a reachable engine to a reachable one. -/
theorem run (h : e.Reachable setup) (ops : List Operation) : (e.run ops).Reachable setup := by
  induction ops generalizing e with
  | nil => exact h
  | cons op rest ih => exact ih (h.perform op)

end Reachable

end Engine

end ModalStack
