/-
# Commands typed key by key

A command is typed key by key, and every key is one step: the engine has to take it, the resolver
has to await more behind all keys but the last, and the last one runs the action.

An engine that is idle (`Engine.Idle`) need not be one that a host has brought about: nothing is
asked of its state but that normal mode is on and nothing is half typed.  It takes every key that
counts, holds the keys as long as more is awaited (`Engine.Idle.run_awaits`), and with the last key
it runs the action and asks its host for what the action asks for (`Engine.Idle.run_completes`).
-/
import Mathlib.Data.List.Induction
import ModalStack.Proofs.Interception
import ModalStack.Proofs.Origins
import ModalStack.Proofs.SearchMemory

namespace ModalStack

/-! ## 1. Presses -/

/-- The press of a character, with no modifier held. -/
def KeyPress.plain (c : Char) : KeyPress := { code := .char c }

theorem KeyPress.token_plain (c : Char) : (plain c).token = String.singleton c := by
  rw [← String.toList_inj, String.toList_singleton]
  exact token_of_char rfl rfl

theorem KeyPress.map_token_plain (cs : List Char) :
    (cs.map plain).map token = cs.map String.singleton := by
  rw [List.map_map]
  exact List.map_congr_left fun c _ => token_plain c

/-- The press goes on a command if it counts: it is no escape, and no text that is left to the
host. -/
structure KeyPress.Continues (press : KeyPress) : Prop where
  ne_escape : press.token ≠ escapeToken
  not_other : press.isOtherWord = false

instance (press : KeyPress) : Decidable press.Continues :=
  decidable_of_iff (press.token ≠ escapeToken ∧ press.isOtherWord = false)
    ⟨fun h => ⟨h.1, h.2⟩, fun h => ⟨h.1, h.2⟩⟩

theorem KeyPress.plain_continues {c : Char} (h : Text.isWord c = true → c.isAlphanum = true) :
    (plain c).Continues where
  ne_escape := by
    intro heq
    rw [token_plain] at heq
    have hlen := congrArg (fun t : String => t.toList.length) heq
    rw [String.toList_singleton, List.length_singleton] at hlen
    exact absurd hlen (by decide)
  not_other := by
    rw [← Bool.not_eq_true, isOtherWord_iff rfl rfl]
    rintro ⟨hword, hnot⟩
    exact absurd (h hword) (by simp [hnot])

/-- The command is news of the state, as a test. -/
def Command.isNews : Command → Bool
  | .selectionChange _ | .modeChange _ | .bufferUpdate _ => true
  | _ => false

theorem Command.isNews_iff {c : Command} : c.isNews = true ↔ c.IsNews := by
  cases c with
  | selectionChange _ | modeChange _ | bufferUpdate _ => exact iff_of_true rfl trivial
  | _ => exact iff_of_false (by simp [isNews]) id

namespace Engine

variable {η : Type} {e : Engine η} {press : KeyPress}

/-- Keys pressed on the stack, one after the other. -/
def pressing (presses : List KeyPress) : List Operation :=
  presses.map fun press => .event (.key press) .stack

theorem pressing_plain (cs : List Char) : pressing (cs.map .plain) = typing cs := by
  rw [pressing, List.map_map]
  rfl

/-- What the host is asked to do in the course of some operations: the commands sent, without
news. -/
def asked (e : Engine η) (ops : List Operation) : List Command :=
  (e.sending ops).filter fun c => !c.isNews

theorem sending_append (e : Engine η) (first second : List Operation) :
    e.sending (first ++ second) = e.sending first ++ (e.run first).sending second := by
  induction first generalizing e with
  | nil => rfl
  | cons op rest ih => rw [List.cons_append, sending, ih, sending, run, List.append_assoc]

theorem asked_append (e : Engine η) (first second : List Operation) :
    e.asked (first ++ second) = e.asked first ++ (e.run first).asked second := by
  rw [asked, sending_append, List.filter_append]
  rfl

theorem pressing_append (front presses : List KeyPress) :
    pressing (front ++ presses) = pressing front ++ pressing presses := List.map_append

end Engine

/-! ## 2. One press -/

namespace State

variable {s : State} {settings : Settings} {press : KeyPress} {ts : List String}

/-- The state with some keys half typed. -/
def holdingKeys (s : State) (ts : List String) : State :=
  { s with buffer := joinTokens ts, keys := ts }

/-- In normal mode a key is gathered, unless it is the escape. -/
theorem react_press (hmode : s.mode = .normal) (settings : Settings)
    (hescape : press.token ≠ escapeToken) :
    s.react .default settings (.key press) = s.gather .defaultNormal settings press.token := by
  have hgathers : s.gathers = true := gathers_iff.mpr (.inl hmode)
  have hkeymap : Keymaps.default.forMode? s.mode = some .defaultNormal := by
    rw [hmode]
    rfl
  rw [react_eq_token hkeymap]
  simp [State.token, hgathers, Input.press, hescape]

theorem gather_holdingKeys (s : State) (m : Keymap) (settings : Settings) (ts : List String)
    (t : String) : (s.holdingKeys ts).gather m settings t =
      match m.resolveKeys (ts ++ [t]) with
      | .resolved r => (s.holdingKeys ts).execute settings r
      | .pending => (s.holdingKeys (ts ++ [t]), none)
      | .invalid => (s.holdingKeys [], none) := rfl

/-- **A key that counts is taken** in normal mode, behind keys that are pending. -/
theorem takes_of_counts (hmode : s.mode = .normal) (hts : ∀ t ∈ ts, IsToken t)
    (hpending : ts ≠ [] → Keymap.defaultNormal.resolveKeys ts = .pending)
    (hcounts : Keymap.defaultNormal.resolveKeys (ts ++ [press.token]) ≠ .invalid)
    (hpress : press.isOtherWord = false) : (s.holdingKeys ts).takes .stack press = true := by
  have hgathered : (s.holdingKeys ts).Gathered .default := by
    refine ⟨rfl, hts, fun hne => ⟨gathers_iff.mpr (.inl hmode), .defaultNormal, ?_, hpending hne⟩⟩
    unfold holdingKeys
    rw [hmode]
    rfl
  have hnormal : Keymaps.default.forMode? .normal = some .defaultNormal := rfl
  have hkeys : ∀ t ∈ Keymap.defaultNormal.keys, t ∈ Keymaps.default.keys :=
    fun t ht => Keymaps.mem_keys hnormal ht
  exact (hgathered.takes_iff_of_counts (.inl hmode) hkeys press hcounts).mpr hpress

end State

/-- **One input**, if the engine takes it: the state is the one that it leads to, and the host is
asked for what an action asks for. -/
theorem Engine.event_taken {η : Type} {e : Engine η} {input : Input} {context : Context}
    (hk : e.keymaps = .default) (htakes : e.state.takes context input.press = true) :
    (e.run [.event input context]).state = (e.state.react .default e.settings input).1 ∧
      e.asked [.event input context] = (e.state.react .default e.settings input).2.toList := by
  refine ⟨?_, ?_⟩
  · simp only [run, perform, handleEvent_state, htakes, if_true, hk]
  · have hsent : ∀ d ∈ (e.state.react .default e.settings input).2.toList, (!d.isNews) = true := by
      intro d hd
      have hnot : ¬ d.IsNews := (State.react_fromKeys (Option.mem_toList.mp hd)).not_isNews
      simpa [← Command.isNews_iff] using hnot
    have hnews : ∀ d ∈ State.news e.state (e.state.react .default e.settings input).1,
        ¬ (!d.isNews) = true := by
      intro d hd
      have hd' : d.isNews = true := Command.isNews_iff.mpr (State.isNews_of_mem hd)
      simp [hd']
    simp only [asked, sending, perform, handleEvent_commands, htakes, if_true, hk, State.step,
      List.append_nil]
    rw [List.filter_append, List.filter_eq_self.mpr hsent, List.filter_eq_nil_iff.mpr hnews,
      List.append_nil]

/-- **One press** in normal mode, if the engine takes it, is gathered. -/
theorem Engine.press_taken {η : Type} {e : Engine η} {press : KeyPress}
    (hk : e.keymaps = .default) (hmode : e.state.mode = .normal)
    (hescape : press.token ≠ escapeToken) (htakes : e.state.takes .stack press = true) :
    (e.run (pressing [press])).state
        = (e.state.gather .defaultNormal e.settings press.token).1 ∧
      e.asked (pressing [press])
        = (e.state.gather .defaultNormal e.settings press.token).2.toList := by
  have htaken : e.state.takes .stack (Input.key press).press = true := htakes
  rw [← State.react_press hmode e.settings hescape]
  exact event_taken hk htaken

/-! ## 3. Idle engines -/

/-- An engine with the default keymaps in normal mode, with nothing half typed. -/
structure Engine.Idle {η : Type} (e : Engine η) : Prop where
  keymaps : e.keymaps = .default
  mode : e.state.mode = .normal
  buffer : e.state.buffer = ""
  keys : e.state.keys = []

/-- In a reachable engine there are no keys where there is no text. -/
theorem Engine.Reachable.idle {η : Type} {setup : Setup} {e : Engine η}
    (hk : setup.keymaps = .default) (hr : e.Reachable setup) (hmode : e.state.mode = .normal)
    (hbuffer : e.state.buffer = "") : e.Idle where
  keymaps := hr.keymaps.trans hk
  mode := hmode
  buffer := hbuffer
  keys := hr.gathered.keys_eq_nil hbuffer

/-- Behind every part of some keys more is awaited. -/
def Keymap.AwaitsKeys (m : Keymap) (ts : List String) : Prop :=
  ∀ front, front <+: ts → front ≠ [] → m.resolveKeys front = .pending

/-- More is awaited up to the last key, and then the keys resolve. -/
structure Keymap.Completes (m : Keymap) (ts : List String) (r : Resolved) : Prop where
  awaits : m.AwaitsKeys ts.dropLast
  resolves : m.resolveKeys ts = .resolved r

namespace Keymap

variable {m : Keymap} {ts : List String} {t : String}

/-- Nothing comes of no keys. -/
theorem resolveKeys_nil (m : Keymap) : m.resolveKeys [] = .invalid := rfl

theorem awaitsKeys_append_singleton :
    m.AwaitsKeys (ts ++ [t]) ↔ m.AwaitsKeys ts ∧ m.resolveKeys (ts ++ [t]) = .pending := by
  constructor
  · intro h
    exact ⟨fun front hfront => h front (hfront.trans (List.prefix_append _ _)),
      h _ (List.prefix_refl _) (by simp)⟩
  · rintro ⟨h, ht⟩ front hfront hne
    rcases List.prefix_concat_iff.mp hfront with rfl | hfront
    · exact ht
    · exact h front hfront hne

end Keymap

namespace Engine.Idle

variable {η : Type} {e : Engine η} {presses front : List KeyPress} {press : KeyPress}
  {r : Resolved}

theorem state_eq (h : e.Idle) : e.state = e.state.holdingKeys [] := by
  unfold State.holdingKeys
  rw [← h.keys]
  have hbuffer : joinTokens e.state.keys = e.state.buffer := by
    rw [h.keys, h.buffer]
    rfl
  rw [hbuffer]

/-- **One more press**, behind keys that were held. -/
theorem run_press (h : e.Idle)
    (hfront : (e.run (pressing front)).state = e.state.holdingKeys (front.map KeyPress.token) ∧
      e.asked (pressing front) = [])
    (hescape : press.token ≠ escapeToken)
    (htakes : (e.state.holdingKeys (front.map KeyPress.token)).takes .stack press = true) :
    (e.run (pressing (front ++ [press]))).state
        = ((e.state.holdingKeys (front.map KeyPress.token)).gather .defaultNormal e.settings
            press.token).1 ∧
      e.asked (pressing (front ++ [press]))
        = ((e.state.holdingKeys (front.map KeyPress.token)).gather .defaultNormal e.settings
            press.token).2.toList := by
  have hkeymaps : (e.run (pressing front)).keymaps = .default :=
    (e.run_keymaps _).trans h.keymaps
  have hmode : (e.run (pressing front)).state.mode = .normal := by
    rw [hfront.1]
    exact h.mode
  rw [← hfront.1] at htakes
  obtain ⟨hstate, hasked⟩ := press_taken hkeymaps hmode hescape htakes
  rw [hfront.1, e.run_settings] at hstate hasked
  rw [pressing_append, run_append, asked_append, hfront.2, List.nil_append]
  exact ⟨hstate, hasked⟩

/-- A key that counts is taken, behind keys that are awaited. -/
theorem takes_of_counts (h : e.Idle)
    (ha : Keymap.defaultNormal.AwaitsKeys (front.map KeyPress.token)) (hpress : press.Continues)
    (hcounts : Keymap.defaultNormal.resolveKeys (front.map KeyPress.token ++ [press.token])
      ≠ .invalid) :
    (e.state.holdingKeys (front.map KeyPress.token)).takes .stack press = true := by
  have htokens : ∀ t ∈ front.map KeyPress.token, IsToken t := by
    intro t ht
    obtain ⟨p, -, rfl⟩ := List.mem_map.mp ht
    exact ⟨p, rfl⟩
  exact State.takes_of_counts h.mode htokens (ha _ (List.prefix_refl _)) hcounts hpress.not_other

/-- **What is awaited is held**, and nothing is asked for. -/
theorem run_awaits (h : e.Idle) (hpresses : ∀ press ∈ presses, press.Continues)
    (ha : Keymap.defaultNormal.AwaitsKeys (presses.map KeyPress.token)) :
    (e.run (pressing presses)).state = e.state.holdingKeys (presses.map KeyPress.token) ∧
      e.asked (pressing presses) = [] := by
  -- from the end, since a key is looked at together with all that were pressed before it
  induction presses using List.reverseRecOn with
  | nil => exact ⟨h.state_eq, rfl⟩
  | append_singleton front press ih =>
    have hpress : press.Continues := hpresses press (by simp)
    rw [List.map_append, List.map_singleton] at ha ⊢
    obtain ⟨hawaits, hpending⟩ := Keymap.awaitsKeys_append_singleton.mp ha
    have hfront := ih (fun p hp => hpresses p (List.mem_append_left _ hp)) hawaits
    -- what is pending counts, so the key is not left to the host
    have hstep := h.run_press hfront hpress.ne_escape
      (h.takes_of_counts hawaits hpress (by simp [hpending]))
    rwa [State.gather_holdingKeys, hpending] at hstep

/-- **What is completed is run**: behind keys that are awaited, a key resolves. -/
theorem run_completes (h : e.Idle) (hfront : ∀ press ∈ front, press.Continues)
    (hpress : press.Continues) (ha : Keymap.defaultNormal.AwaitsKeys (front.map KeyPress.token))
    (hr : Keymap.defaultNormal.resolveKeys (front.map KeyPress.token ++ [press.token])
      = .resolved r) :
    (e.run (pressing (front ++ [press]))).state
        = ((e.state.holdingKeys (front.map KeyPress.token)).execute e.settings r).1 ∧
      e.asked (pressing (front ++ [press]))
        = ((e.state.holdingKeys (front.map KeyPress.token)).execute e.settings r).2.toList := by
  have hstep := h.run_press (h.run_awaits hfront ha) hpress.ne_escape
    (h.takes_of_counts ha hpress (by simp [hr]))
  rwa [State.gather_holdingKeys, hr] at hstep

/-- The same for all keys of a command. -/
theorem run_completed (h : e.Idle) (hpresses : ∀ press ∈ presses, press.Continues)
    (hc : Keymap.defaultNormal.Completes (presses.map KeyPress.token) r) :
    (e.run (pressing presses)).state
        = ((e.state.holdingKeys (presses.map KeyPress.token).dropLast).execute e.settings r).1 ∧
      e.asked (pressing presses)
        = ((e.state.holdingKeys (presses.map KeyPress.token).dropLast).execute e.settings
            r).2.toList := by
  obtain ⟨hawaits, hresolves⟩ := hc
  cases presses using List.reverseRecOn with
  | nil => exact absurd hresolves (by simp [Keymap.resolveKeys_nil])
  | append_singleton front press =>
    rw [List.map_append, List.map_singleton] at hawaits hresolves ⊢
    rw [List.dropLast_concat] at hawaits ⊢
    exact h.run_completes (fun p hp => hpresses p (List.mem_append_left _ hp))
      (hpresses press (by simp)) hawaits hresolves

end Engine.Idle

end ModalStack
