/-
# Listeners and their history

Parts of a user interface come and go and take the focus from each other, and none of them
knows what the others do.  Who listens in the end, in which order and who has the focus is
nevertheless a matter of the calls alone, and is said here in terms of the latest call of each
kind (`Listeners.FollowsHistory`): which one registered an id, which one gave it its place in the
order, which one gave it the focus.

Each of these is a property of the form `Since P Q`, and what one call does to the listeners is
the law of it.
-/
import Mathlib.Data.List.Forall2
import Mathlib.Data.List.Induction
import Mathlib.Data.List.Nodup
import ModalStack.Proofs.History
import ModalStack.Proofs.Listening

namespace ModalStack

namespace Listeners

variable {η : Type} {l : Listeners η} {id : String} {handler : η} {n : Nat}

/-! ## 1. Calls -/

/-- What can be asked of the listeners. -/
inductive Call (η : Type) where
  | register (id : String) (handler : η)
  | unregister (id : String)
  | requestFocus (id : String)
  | releaseFocus (id : String)
  | publish (command : Command)

variable {c : Call η} {calls : List (Call η)}

/-- The listeners after a call. -/
def after (l : Listeners η) : Call η → Listeners η
  | .register id handler => l.register id handler
  | .unregister id => l.unregister id
  | .requestFocus id =>
    match l.requestFocus id with
    | .ok next => next
    | .error _ => l
  | .releaseFocus id => l.releaseFocus id
  | .publish _ => l

/-- The listeners that calls leave behind, to begin with nobody. -/
def run (calls : List (Call η)) : Listeners η := calls.foldl after .empty

theorem run_append_singleton : run (calls ++ [c]) = (run calls).after c := by
  rw [run, List.foldl_append, ← run]
  rfl

/-! ## 2. What calls decide -/

/-- A listener was registered under the id, and the id was not unregistered since. -/
def Registered (calls : List (Call η)) (id : String) : Prop :=
  Since (fun _ c => ∃ handler, c = .register id handler) (fun _ c => c ≠ .unregister id) calls

/-- This was the latest to be registered under the id, which was not unregistered since. -/
def Holds (calls : List (Call η)) (id : String) (handler : η) : Prop :=
  Since (fun _ c => c = .register id handler)
    (fun _ c => (∀ other, c ≠ .register id other) ∧ c ≠ .unregister id) calls

/-- After `n` calls came the first that registered the id, of those since it was last
unregistered. -/
def JoinedAt (calls : List (Call η)) (id : String) (n : Nat) : Prop :=
  Since (fun before c => (∃ handler, c = .register id handler) ∧ ¬ Registered before id ∧
      before.length = n)
    (fun _ c => c ≠ .unregister id) calls

/-- The id was the latest to request the focus with success, and was neither released nor
unregistered since.  A request succeeds if the id is registered. -/
def Focused (calls : List (Call η)) (id : String) : Prop :=
  Since (fun before c => c = .requestFocus id ∧ Registered before id)
    (fun before c => (∀ other, c = .requestFocus other → ¬ Registered before other) ∧
      c ≠ .releaseFocus id ∧ c ≠ .unregister id) calls

theorem registered_append_singleton :
    Registered (calls ++ [c]) id ↔
      (∃ handler, c = .register id handler) ∨ Registered calls id ∧ c ≠ .unregister id :=
  since_append_singleton

theorem joinedAt_append_singleton :
    JoinedAt (calls ++ [c]) id n ↔
      ((∃ handler, c = .register id handler) ∧ ¬ Registered calls id ∧ calls.length = n) ∨
        JoinedAt calls id n ∧ c ≠ .unregister id :=
  since_append_singleton

/-! ## 3. One call -/

/-- A request succeeds for the ids that are registered, and fails without effect for others. -/
theorem after_requestFocus (l : Listeners η) (id : String) :
    l.after (.requestFocus id)
      = if id ∈ l.handlers.keys then { l with focused := some id } else l := by
  have hregistered : l.isRegistered id = true ↔ id ∈ l.handlers.keys := Table.contains_iff
  by_cases h : id ∈ l.handlers.keys
  · simp only [after, requestFocus, if_pos (hregistered.mpr h), if_pos h]
  · simp only [after, requestFocus, if_neg (mt hregistered.mp h), if_neg h]

theorem releaseFocus_focused {k : String} :
    (l.releaseFocus k).focused = some id ↔ l.focused = some id ∧ k ≠ id := by
  unfold releaseFocus hasFocus
  split
  · rename_i hk
    have hfocused : l.focused = some k := eq_of_beq hk
    simp [hfocused]
  · rename_i hk
    have hfocused : l.focused ≠ some k := fun h => hk (beq_iff_eq.mpr h)
    constructor
    · intro h
      refine ⟨h, ?_⟩
      rintro rfl
      exact hfocused h
    · exact And.left

theorem releaseFocus_handlers (k : String) : (l.releaseFocus k).handlers = l.handlers := by
  unfold releaseFocus
  split
  · rfl
  · rfl

/-- The ids that are registered after a call, in order. -/
theorem keys_after (l : Listeners η) (c : Call η) :
    (l.after c).handlers.keys = match c with
      | .register id _ =>
        if id ∈ l.handlers.keys then l.handlers.keys else l.handlers.keys ++ [id]
      | .unregister id => l.handlers.keys.filter fun k => k ≠ id
      | _ => l.handlers.keys := by
  cases c with
  | register id handler => exact Assoc.keys_insert id handler l.handlers.entries
  | unregister id => exact Assoc.keys_erase id l.handlers.entries
  | requestFocus id =>
    rw [after_requestFocus]
    split
    · rfl
    · rfl
  | releaseFocus id =>
    simp only [after, releaseFocus_handlers]
  | publish command => rfl

theorem mem_keys_after :
    id ∈ (l.after c).handlers.keys ↔
      (∃ handler, c = .register id handler) ∨ id ∈ l.handlers.keys ∧ c ≠ .unregister id := by
  rw [keys_after]
  cases c with
  | register k handler =>
    have hnew : (∃ other, Call.register k handler = .register id other) ↔ id = k := by
      simp [eq_comm]
    have hold : Call.register k handler ≠ .unregister id := by simp
    simp only [hnew, ne_eq, hold, not_false_eq_true, and_true]
    split
    · rename_i hk
      refine ⟨.inr, ?_⟩
      rintro (rfl | h)
      · exact hk
      · exact h
    · rw [List.mem_append, List.mem_singleton, or_comm]
  | unregister k =>
    have hnew : ¬ ∃ other : η, Call.unregister k = .register id other := by simp
    have hgone : (.unregister k : Call η) ≠ .unregister id ↔ id ≠ k := by simp [eq_comm]
    simp only [List.mem_filter, decide_eq_true_eq, hnew, hgone, false_or]
  | requestFocus k => simp
  | releaseFocus k => simp
  | publish command => simp

theorem get?_after :
    (l.after c).handlers.get? id = some handler ↔
      c = .register id handler ∨ l.handlers.get? id = some handler ∧
        (∀ other, c ≠ .register id other) ∧ c ≠ .unregister id := by
  cases c with
  | register k value =>
    have hget : (l.after (.register k value)).handlers.get? id
        = if k = id then some value else l.handlers.get? id :=
      Table.get?_insert l.handlers k id value
    rw [hget]
    by_cases hk : k = id
    · simp [hk]
    · simp [hk]
  | unregister k =>
    have hget : (l.after (.unregister k)).handlers.get? id
        = if k = id then none else l.handlers.get? id :=
      Table.get?_erase l.handlers k id
    rw [hget]
    by_cases hk : k = id
    · simp [hk]
    · simp [hk]
  | requestFocus k =>
    rw [after_requestFocus]
    split
    · simp
    · simp
  | releaseFocus k => simp [after, releaseFocus_handlers]
  | publish command => simp [after]

theorem focused_after :
    (l.after c).focused = some id ↔
      c = .requestFocus id ∧ id ∈ l.handlers.keys ∨ l.focused = some id ∧
        (∀ other, c = .requestFocus other → other ∉ l.handlers.keys) ∧
        c ≠ .releaseFocus id ∧ c ≠ .unregister id := by
  cases c with
  | register k value => simp [after, register]
  | unregister k => simp [after, unregister, releaseFocus_focused]
  | requestFocus k =>
    rw [after_requestFocus]
    by_cases hk : k ∈ l.handlers.keys
    · rw [if_pos hk]
      constructor
      · intro h
        obtain rfl := Option.some.inj h
        exact .inl ⟨rfl, hk⟩
      · rintro (⟨h, -⟩ | ⟨-, hothers, -⟩)
        · rw [Call.requestFocus.inj h]
        · exact absurd hk (hothers k rfl)
    · rw [if_neg hk]
      constructor
      · intro h
        refine .inr ⟨h, ?_, by simp, by simp⟩
        intro other hother
        obtain rfl := Call.requestFocus.inj hother
        exact hk
      · rintro (⟨h, hid⟩ | ⟨h, -⟩)
        · obtain rfl := Call.requestFocus.inj h
          exact absurd hid hk
        · exact h
  | releaseFocus k => simp [after, releaseFocus_focused]
  | publish command => simp [after]

/-! ## 4. Who listens -/

theorem mem_keys_run : id ∈ (run calls).handlers.keys ↔ Registered calls id :=
  foldl_iff_since (fun l : Listeners η => id ∈ l.handlers.keys) List.not_mem_nil
    (fun _ _ => mem_keys_after) calls

theorem get?_run : (run calls).handlers.get? id = some handler ↔ Holds calls id handler :=
  foldl_iff_since (fun l : Listeners η => l.handlers.get? id = some handler) (by simp [empty])
    (fun _ _ => get?_after) calls

/-! ## 5. In which order -/

namespace JoinedAt

theorem lt_length (h : JoinedAt calls id n) : n < calls.length := by
  obtain ⟨before, c, rest, rfl, ⟨-, -, rfl⟩, -⟩ := h
  simp

theorem registered (h : JoinedAt calls id n) : Registered calls id :=
  h.mono (fun _ _ hjoin => hjoin.1) (fun _ _ hkeep => hkeep)

/-- An id keeps its place as long as it is registered. -/
theorem of_append_singleton (h : JoinedAt (calls ++ [c]) id n) (hreg : Registered calls id) :
    JoinedAt calls id n := by
  rcases joinedAt_append_singleton.mp h with ⟨-, hnot, -⟩ | ⟨hold, -⟩
  · exact absurd hreg hnot
  · exact hold

/-- A new id comes last. -/
theorem eq_length (h : JoinedAt (calls ++ [c]) id n) (hnew : ¬ Registered calls id) :
    n = calls.length := by
  rcases joinedAt_append_singleton.mp h with ⟨-, -, hn⟩ | ⟨hold, -⟩
  · exact hn.symm
  · exact absurd hold.registered hnew

end JoinedAt

/-- Every id that is registered has one place. -/
theorem existsUnique_joinedAt (h : Registered calls id) : ∃! n, JoinedAt calls id n := by
  induction calls using List.reverseRecOn with
  | nil => exact absurd h not_since_nil
  | append_singleton calls c ih =>
    by_cases hreg : Registered calls id
    · obtain ⟨n, hn, hunique⟩ := ih hreg
      have hkeep : c ≠ .unregister id := by
        rcases registered_append_singleton.mp h with ⟨handler, rfl⟩ | ⟨-, hne⟩
        · simp
        · exact hne
      exact ⟨n, joinedAt_append_singleton.mpr (.inr ⟨hn, hkeep⟩),
        fun m hm => hunique m (hm.of_append_singleton hreg)⟩
    · have hjoin : ∃ handler, c = .register id handler := by
        rcases registered_append_singleton.mp h with hjoin | ⟨hold, -⟩
        · exact hjoin
        · exact absurd hold hreg
      exact ⟨calls.length, joinedAt_append_singleton.mpr (.inl ⟨hjoin, hreg, rfl⟩),
        fun m hm => hm.eq_length hreg⟩

/-- The order of delivery is that in which the ids took their places. -/
theorem pairwise_keys_run (calls : List (Call η)) :
    (run calls).handlers.keys.Pairwise fun a b =>
      ∀ m n, JoinedAt calls a m → JoinedAt calls b n → m < n := by
  induction calls using List.reverseRecOn with
  | nil => exact List.Pairwise.nil
  | append_singleton calls c ih =>
    have hold : (run calls).handlers.keys.Pairwise fun a b =>
        ∀ m n, JoinedAt (calls ++ [c]) a m → JoinedAt (calls ++ [c]) b n → m < n := by
      refine ih.imp_of_mem fun ha hb hab m n hm hn => ?_
      exact hab m n (hm.of_append_singleton (mem_keys_run.mp ha))
        (hn.of_append_singleton (mem_keys_run.mp hb))
    rw [run_append_singleton, keys_after]
    cases c with
    | register id handler =>
      by_cases hid : id ∈ (run calls).handlers.keys
      · simp only [if_pos hid]
        exact hold
      · simp only [if_neg hid]
        refine List.pairwise_append.mpr ⟨hold, List.pairwise_singleton _ _, ?_⟩
        intro a ha b hb m n hm hn
        obtain rfl := List.mem_singleton.mp hb
        rw [hn.eq_length (mt mem_keys_run.mpr hid)]
        exact (hm.of_append_singleton (mem_keys_run.mp ha)).lt_length
    | unregister id => exact hold.filter _
    | requestFocus id => exact hold
    | releaseFocus id => exact hold
    | publish command => exact hold

/-- A handler that is replaced keeps its place, and one that comes back has lost it. -/
example : (run [.register "list" 1, .register "view" 2, .register "list" 3, .unregister "view",
    .register "help" 4, .register "view" 5]).handlers.entries
      = [("list", 3), ("help", 4), ("view", 5)] := by
  decide

/-! ## 6. Who has the focus -/

theorem focused_run : (run calls).focused = some id ↔ Focused calls id := by
  refine foldl_iff_since (fun l : Listeners η => l.focused = some id) (by simp [empty]) ?_ calls
  intro before c
  have hcall := @focused_after _ (run before) id c
  simp only [mem_keys_run] at hcall
  exact hcall

/-- One call keeps the focus among those registered. -/
theorem focused_mem_keys_after (h : ∀ id, l.focused = some id → id ∈ l.handlers.keys)
    (hfocused : (l.after c).focused = some id) : id ∈ (l.after c).handlers.keys := by
  rw [mem_keys_after]
  rcases focused_after.mp hfocused with ⟨rfl, hid⟩ | ⟨hkeep, -, -, hne⟩
  · exact .inr ⟨hid, by simp⟩
  · exact .inr ⟨h id hkeep, hne⟩

theorem focused_mem_keys_run (h : (run calls).focused = some id) :
    id ∈ (run calls).handlers.keys := by
  induction calls using List.reverseRecOn generalizing id with
  | nil => exact absurd h (by simp [run, empty])
  | append_singleton calls c ih =>
    rw [run_append_singleton] at h ⊢
    exact focused_mem_keys_after (fun _ => ih) h

theorem requestFocus_eq_ok_iff :
    (∃ next, l.requestFocus id = .ok next) ↔ id ∈ l.handlers.keys := by
  rw [← Table.contains_iff, requestFocus, isRegistered]
  split
  · rename_i h
    exact ⟨fun _ => h, fun _ => ⟨_, rfl⟩⟩
  · rename_i h
    exact ⟨fun ⟨_, hnext⟩ => absurd hnext (by simp), fun h' => absurd h' h⟩

theorem requestFocus_eq_error {e : UnknownListener} (h : l.requestFocus id = .error e) :
    e = ⟨id⟩ ∧ l.after (.requestFocus id) = l := by
  refine ⟨?_, by simp only [after, h]⟩
  unfold requestFocus at h
  split at h
  · exact absurd h (by simp)
  · exact (Except.error.inj h).symm

/-- What is published is heard by those registered, in order. -/
theorem forall₂_deliver (calls : List (Call η)) (command : Command) :
    List.Forall₂ (fun id (d : Delivery η) =>
        Holds calls id d.handler ∧ d.command = command ∧ (d.focused = true ↔ Focused calls id))
      (run calls).handlers.keys ((run calls).deliver command) := by
  rw [deliver, Table.keys, Assoc.keys, List.forall₂_map_left_iff, List.forall₂_map_right_iff,
    List.forall₂_same]
  intro e he
  refine ⟨get?_run.mp (Table.get?_of_mem he), rfl, ?_⟩
  rw [hasFocus, beq_iff_eq, focused_run]

/-! ## 7. Listeners of an engine -/

/-- The listeners with their ids for handlers, so that it shows who hears what. -/
def named (l : Listeners η) : Listeners String where
  handlers := {
    entries := l.handlers.entries.map fun e => (e.1, e.1)
    nodup := by simpa [Assoc.keys, Function.comp_def] using l.handlers.nodup }
  focused := l.focused

theorem named_hearsOnce (h : id ∈ l.handlers.keys) : l.named.HearsOnce id := by
  have hcount : l.handlers.keys.count id = 1 := List.count_eq_one_of_mem l.handlers.nodup h
  rw [HearsOnce, ← List.countP_eq_length_filter, named, List.countP_map]
  rw [Table.keys, Assoc.keys, List.count, List.countP_map] at hcount
  exact hcount

/-- Handlers hear what their ids would. -/
theorem forall₂_deliverAll_named (l : Listeners η) (commands : List Command) :
    List.Forall₂ (fun (d : Delivery String) (d' : Delivery η) =>
        l.handlers.get? d.handler = some d'.handler ∧ d.command = d'.command ∧
          d.focused = d'.focused)
      (l.named.deliverAll commands) (l.deliverAll commands) := by
  induction commands with
  | nil => exact .nil
  | cons command rest ih =>
    refine List.rel_append ?_ ih
    rw [deliver, deliver, named, List.map_map, List.forall₂_map_left_iff,
      List.forall₂_map_right_iff, List.forall₂_same]
    exact fun e he => ⟨Table.get?_of_mem he, rfl, rfl⟩

end Listeners

namespace Engine

variable {η : Type}

/-- The engine with the ids of its listeners for handlers. -/
def named (e : Engine η) : Engine String where
  state := e.state
  keymaps := e.keymaps
  settings := e.settings
  listeners := e.listeners.named

/-- Handlers do not matter to what an engine sends. -/
theorem named_perform_commands (e : Engine η) (op : Operation) :
    (e.named.perform op).2.commands = (e.perform op).2.commands := by
  cases op with
  | event input context =>
    calc (e.named.handleEvent input context).2.commands
        = if e.state.takes context input.press then
            (e.state.step e.keymaps e.settings input).2
          else [] := e.named.handleEvent_commands input context
      _ = (e.handleEvent input context).2.commands := (e.handleEvent_commands input context).symm
  | _ => rfl

theorem named_perform_deliveries (e : Engine η) (op : Operation) :
    (e.named.perform op).2.deliveries
      = e.listeners.named.deliverAll (e.perform op).2.commands := by
  rw [perform_deliveries, named_perform_commands]
  rfl

/-- Every id that is registered hears what the operation sends. -/
theorem heardBy_named (e : Engine η) (op : Operation) {id : String}
    (h : e.listeners.isRegistered id = true) :
    heardBy id (e.named.perform op).2.deliveries = (e.perform op).2.commands := by
  have hears : e.listeners.named.HearsOnce id :=
    Listeners.named_hearsOnce (Table.contains_iff.mp h)
  rw [named_perform_deliveries, hears.heardBy_deliverAll]

end Engine

/-! ## 8. All of it -/

/-- The listeners are those that the calls decide on. -/
structure Listeners.FollowsHistory {η : Type} (calls : List (Call η)) (l : Listeners η) : Prop where
  /-- No id is registered twice. -/
  nodup : l.handlers.keys.Nodup
  registered : ∀ id, l.isRegistered id = true ↔ Registered calls id
  focused_registered : ∀ id, l.focused = some id → l.isRegistered id = true
  focused : ∀ id, l.focused = some id ↔ Focused calls id
  granted : ∀ id, (∃ next, l.requestFocus id = .ok next) ↔ Registered calls id
  refused : ∀ id e, l.requestFocus id = .error e → e = ⟨id⟩ ∧ l.after (.requestFocus id) = l
  /-- Every id that is registered has one place. -/
  place : ∀ id, Registered calls id → ∃! n, JoinedAt calls id n
  order : l.handlers.keys.Pairwise fun a b =>
    ∀ m n, JoinedAt calls a m → JoinedAt calls b n → m < n
  heard : ∀ command, List.Forall₂ (fun id (d : Delivery η) =>
      Holds calls id d.handler ∧ d.command = command ∧ (d.focused = true ↔ Focused calls id))
    l.handlers.keys (l.deliver command)

/-- **Listeners follow their history.**  After any calls, those who listen, their order, the
focus and who hears what is published are as the latest calls of each kind decide.  An engine
leaves its listeners as they are, whatever is done to it, and each of them hears the commands
that are reported, all of them, once each and in order.  (The handlers hear what their ids would
hear in their place.) -/
theorem Listeners.run_followsHistory {η : Type} :
    (∀ calls : List (Call η), FollowsHistory calls (run calls)) ∧
    ∀ (e : Engine η) (op : Engine.Operation),
      (e.perform op).1.listeners = e.listeners ∧
      List.Forall₂ (fun (d : Delivery String) (d' : Delivery η) =>
          e.listeners.handlers.get? d.handler = some d'.handler ∧ d.command = d'.command ∧
            d.focused = d'.focused)
        (e.named.perform op).2.deliveries (e.perform op).2.deliveries ∧
      ∀ id, e.listeners.isRegistered id = true →
        heardBy id (e.named.perform op).2.deliveries = (e.perform op).2.commands := by
  refine ⟨fun calls => ?_, fun e op => ⟨e.perform_listeners op, ?_, fun id => e.heardBy_named op⟩⟩
  · have hregistered : ∀ id, (run calls).isRegistered id = true ↔ Registered calls id :=
      fun id => Table.contains_iff.trans mem_keys_run
    exact {
      nodup := (run calls).handlers.nodup
      registered := hregistered
      focused_registered := fun id h => Table.contains_iff.mpr (focused_mem_keys_run h)
      focused := fun id => focused_run
      granted := fun id => requestFocus_eq_ok_iff.trans mem_keys_run
      refused := fun id e h => requestFocus_eq_error h
      place := fun id h => existsUnique_joinedAt h
      order := pairwise_keys_run calls
      heard := forall₂_deliver calls }
  · rw [Engine.named_perform_deliveries, Engine.perform_deliveries]
    exact forall₂_deliverAll_named e.listeners (e.perform op).2.commands

end ModalStack
