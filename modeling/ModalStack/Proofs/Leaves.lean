/-
# Where a keymap leads

Whatever the keys, the engine only ever runs an action that some key of the current keymap
leads to.  So a property that all these actions share is a property of what is run
(`Keymap.All.resolveKeys`), and for that nothing has to be known of phrases, counts and
registers.

For the default keymaps the actions are listed once, mode by mode (`Bound`): a statement about
the default keymaps is a case analysis over that list, with one case for each action.

Keymaps of a host's own may still lead to nothing but the library's actions, under other keys, in
other modes and under other names (`Keymaps.OfLibrary`).  For them too it is one case for each
action, since normal mode could bind them all.
-/
import ModalStack.Keymap.Default
import ModalStack.Resolution

namespace ModalStack

/-! ## 1. A property of all actions of a keymap -/

/-- Every action that a binding leads to has the property. -/
inductive Binding.All (P : Action → Prop) : Binding → Prop
  | action {a : Action} : P a → Binding.All P (.action a)
  | submap {m : Keymap} : (∀ e ∈ m.entries, Binding.All P e.2) → Binding.All P (.submap m)

/-- Every action that a keymap leads to has the property. -/
def Keymap.All (P : Action → Prop) (m : Keymap) : Prop := ∀ e ∈ m.entries, e.2.All P

namespace Keymap.All

variable {P : Action → Prop} {m : Keymap}

theorem get? (h : Keymap.All P m) {key : String} {b : Binding} (hb : m.get? key = some b) :
    b.All P :=
  h (key, b) (KeyTable.mem_of_get? hb)

theorem action? (h : Keymap.All P m) {key : String} {a : Action}
    (ha : m.action? key = some a) : P a := by
  unfold Keymap.action? at ha
  split at ha
  · rename_i b hb
    obtain rfl := Option.some.inj ha
    cases h.get? hb with
    | action hP => exact hP
  · exact absurd ha (by simp)

/-- The keymap under a key has the property too. -/
theorem submap (h : Keymap.All P m) {key : String} {inner : Keymap}
    (hb : m.get? key = some (.submap inner)) : Keymap.All P inner := by
  cases h.get? hb with
  | submap hin => exact hin

theorem walk : ∀ {keys : List String} {m : Keymap} {a : Action}, Keymap.All P m →
    m.walk keys = .found a → P a
  | [], _, _, _, ha => absurd ha (by simp [Keymap.walk])
  | key :: rest, m, a, h, ha => by
    rw [Keymap.walk] at ha
    split at ha
    · exact absurd ha (by simp)
    · rename_i b hb
      split at ha
      · obtain rfl := Walk.found.inj ha
        cases h.get? hb with
        | action hP => exact hP
      · exact absurd ha (by simp)
    · rename_i inner hb
      split at ha
      · exact absurd ha (by simp)
      · exact walk (h.submap hb) ha

theorem actionFor? (h : Keymap.All P m) {phrase : Phrase} {a : Action}
    (ha : m.actionFor? phrase = some a) : P a := by
  unfold Keymap.actionFor? at ha
  split at ha
  · rename_i b hb
    obtain rfl := Option.some.inj ha
    cases h.get? hb with
    | action hP => exact hP
  · rename_i inner hb
    split at ha
    · exact (h.submap hb).action? ha
    · exact absurd ha (by simp)
  · exact absurd ha (by simp)

theorem phraseAction? (h : Keymap.All P m) {body : String} {phrase : Phrase} {a : Action}
    (ha : m.phraseAction? body = some (phrase, a)) : P a := by
  unfold Keymap.phraseAction? at ha
  obtain ⟨p, -, hp⟩ := Option.bind_eq_some_iff.mp ha
  obtain ⟨b, hb, hpair⟩ := Option.map_eq_some_iff.mp hp
  obtain ⟨-, rfl⟩ := Prod.mk.inj hpair
  exact h.actionFor? hb

theorem resolveBody (h : Keymap.All P m) {raw : String} {register : Option String}
    {keys : List String} {r : Resolved} (hr : m.resolveBody raw register keys = .resolved r) :
    P r.action := by
  simp only [Keymap.resolveBody] at hr
  split at hr
  · rename_i phrase a ha
    obtain rfl := Resolution.resolved.inj hr
    exact h.phraseAction? ha
  · split at hr
    · exact absurd hr (by simp)
    · split at hr
      · rename_i a ha
        obtain rfl := Resolution.resolved.inj hr
        exact h.walk ha
      · exact absurd hr (by simp)
      · exact absurd hr (by simp)

/-- **What resolves comes from the keymap.**  Whichever way the tokens resolve, as a phrase or
by a walk, the action is one that the keymap leads to. -/
theorem resolveKeys (h : Keymap.All P m) {keys : List String} {r : Resolved}
    (hr : m.resolveKeys keys = .resolved r) : P r.action := by
  unfold Keymap.resolveKeys at hr
  split at hr
  · exact absurd hr (by simp)
  · exact absurd hr (by simp)
  · exact h.resolveBody hr

end Keymap.All

/-! ## 2. What the default keymaps bind -/

/-- The mode is one in which keys are gathered to commands. -/
def Mode.Gathers (mode : Mode) : Prop := mode = .normal ∨ mode = .visual

open ModalStack.Action in
/-- The actions that the default keymap of a mode binds. -/
inductive Bound : Mode → (Invocation → Reaction) → Prop
  | moveDown {mode : Mode} : mode.Gathers → Bound mode moveDown
  | moveUp {mode : Mode} : mode.Gathers → Bound mode moveUp
  | gotoPosition {mode : Mode} : mode.Gathers → Bound mode gotoPosition
  | gotoBottom {mode : Mode} : mode.Gathers → Bound mode gotoBottom
  | gotoTop {mode : Mode} : mode.Gathers → Bound mode gotoTop
  | gotoNamed : Bound .normal gotoNamed
  | delete {mode : Mode} : mode.Gathers → Bound mode delete
  | yank {mode : Mode} : mode.Gathers → Bound mode yank
  | change {mode : Mode} : mode.Gathers → Bound mode change
  | deleteToPosition : Bound .normal deleteToPosition
  | yankToPosition : Bound .normal yankToPosition
  | paste (after : Bool) : Bound .normal (paste after)
  | swap : Bound .normal swap
  | rotate : Bound .normal rotate
  | openItem (above : Bool) : Bound .normal (openItem above)
  | insertMode : Bound .normal insertMode
  | visualMode : Bound .normal visualMode
  | commandMode : Bound .normal commandMode
  | search (direction : Direction) : Bound .normal (search direction)
  | nextMatch (reverse : Bool) : Bound .normal (nextMatch reverse)
  | dotRepeat : Bound .normal dotRepeat
  | escape (mode : Mode) : Bound mode escape

/-- A key that is bound to an action leads to it alone. -/
theorem Keymap.bind_all {P : Action → Prop} {key name : String} {run : Invocation → Reaction}
    (h : P ⟨name, run⟩) : (Keymap.bind key name run).2.All P :=
  .action h

theorem Keymap.bindDoubled_all {P : Action → Prop} {key waiting name : String}
    {run : Invocation → Reaction} (h : P ⟨name, run⟩) :
    (Keymap.bindDoubled key waiting name run).2.All P :=
  .submap fun e he => by rw [List.mem_singleton.mp he]; exact .action h

theorem Keymap.motions_all {mode : Mode} (hm : mode.Gathers) :
    ∀ e ∈ Keymap.motions, e.2.All fun a => Bound mode a.run := by
  simp only [Keymap.motions, List.forall_mem_cons]
  exact ⟨bind_all (.moveDown hm), bind_all (.moveDown hm), bind_all (.moveUp hm),
    bind_all (.moveUp hm), bind_all (.gotoPosition hm), bind_all (.gotoBottom hm),
    bind_all (.gotoTop hm), by simp⟩

theorem Keymap.defaultNormal_all : Keymap.defaultNormal.All fun a => Bound .normal a.run := by
  have hm : Mode.normal.Gathers := Or.inl rfl
  refine List.forall_mem_append.mpr ⟨motions_all hm, ?_⟩
  simp only [List.forall_mem_cons]
  exact ⟨bindDoubled_all (.delete hm), bind_all .deleteToPosition, bindDoubled_all (.delete hm),
    bind_all .deleteToPosition, bindDoubled_all (.yank hm), bind_all .yankToPosition,
    bind_all (.yank hm), bind_all (.paste true), bind_all (.paste false), bind_all .swap,
    bind_all .rotate, bind_all (.openItem false), bind_all (.openItem true),
    bindDoubled_all (.change hm), bind_all (.change hm), bind_all .insertMode,
    bind_all .insertMode, bind_all .visualMode, bind_all .visualMode,
    bind_all (.search .forward), bind_all (.search .backward), bind_all (.nextMatch false),
    bind_all (.nextMatch true), bind_all .commandMode, bind_all .dotRepeat,
    bind_all .gotoNamed, bind_all (.escape _), by simp⟩

theorem Keymap.defaultVisual_all : Keymap.defaultVisual.All fun a => Bound .visual a.run := by
  have hm : Mode.visual.Gathers := Or.inr rfl
  refine List.forall_mem_append.mpr ⟨motions_all hm, ?_⟩
  simp only [List.forall_mem_cons]
  exact ⟨bind_all (.delete hm), bind_all (.delete hm), bind_all (.yank hm), bind_all (.yank hm),
    bind_all (.change hm), bind_all (.escape _), bind_all (.escape _), bind_all (.escape _),
    by simp⟩

theorem Keymap.defaultInsert_all : Keymap.defaultInsert.All fun a => Bound .insert a.run := by
  simp only [Keymap.All, Keymap.defaultInsert, List.forall_mem_cons]
  exact ⟨bind_all (.escape _), by simp⟩

theorem Keymap.defaultCommand_all : Keymap.defaultCommand.All fun a => Bound .command a.run := by
  simp only [Keymap.All, Keymap.defaultCommand, List.forall_mem_cons]
  exact ⟨bind_all (.escape _), bind_all (.escape _), by simp⟩

/-- **The default keymaps, action by action.**  Every action that the default keymap of a mode
leads to is one of those listed for the mode. -/
theorem Keymaps.default_all {mode : Mode} {m : Keymap}
    (h : Keymaps.default.forMode? mode = some m) : m.All fun a => Bound mode a.run := by
  cases mode with
  | normal => obtain rfl := Option.some.inj h; exact Keymap.defaultNormal_all
  | insert => obtain rfl := Option.some.inj h; exact Keymap.defaultInsert_all
  | visual => obtain rfl := Option.some.inj h; exact Keymap.defaultVisual_all
  | command => obtain rfl := Option.some.inj h; exact Keymap.defaultCommand_all
  | search => exact absurd h (by simp [Keymaps.forMode?])

/-! ## 3. Keymaps of the library's actions -/

/-- A weaker property holds of all actions too. -/
theorem Binding.All.mono {P Q : Action → Prop} (hPQ : ∀ a, P a → Q a) {b : Binding} :
    Binding.All P b → Binding.All Q b
  | .action h => .action (hPQ _ h)
  | .submap h => .submap fun e he => (h e he).mono hPQ

/-- Whatever the modes and the names, the keymaps lead to actions of the library only. -/
def Keymaps.OfLibrary (k : Keymaps) : Prop :=
  ∀ mode m, k.forMode? mode = some m → m.All fun a => ∃ b ∈ Action.library, b.run = a.run

/-- Normal mode could bind the whole library. -/
theorem Bound.of_mem_library : ∀ a ∈ Action.library, Bound .normal a.run := by
  have hm : Mode.normal.Gathers := .inl rfl
  simp only [Action.library, List.forall_mem_cons]
  exact ⟨.moveDown hm, .moveUp hm, .gotoPosition hm, .gotoBottom hm, .gotoTop hm, .gotoNamed,
    .delete hm, .yank hm, .deleteToPosition, .yankToPosition, .paste true, .paste false, .swap,
    .rotate, .openItem false, .openItem true, .change hm, .insertMode, .visualMode, .commandMode,
    .search .forward, .search .backward, .nextMatch false, .nextMatch true, .dotRepeat,
    .escape _, by simp⟩

/-- What the keymaps of the library lead to is listed in one place, as what normal mode could
bind. -/
theorem Keymaps.OfLibrary.bound {k : Keymaps} (h : k.OfLibrary) {mode : Mode} {m : Keymap}
    (hm : k.forMode? mode = some m) : m.All fun a => Bound .normal a.run := by
  intro e he
  refine (h mode m hm e he).mono ?_
  rintro a ⟨b, hb, hrun⟩
  rw [← hrun]
  exact Bound.of_mem_library b hb

/-- Every action of the default keymaps is one of the library. -/
theorem Bound.mem_library {mode : Mode} {run : Invocation → Reaction} (h : Bound mode run) :
    ∃ a ∈ Action.library, a.run = run := by
  have hmem (name : String) {a : Action} (ha : Action.named? name = some a) :
      ∃ b ∈ Action.library, b.run = a.run := ⟨a, List.mem_of_find?_eq_some ha, rfl⟩
  cases h with
  | moveDown _ => exact hmem "move_down" rfl
  | moveUp _ => exact hmem "move_up" rfl
  | gotoPosition _ => exact hmem "goto_position" rfl
  | gotoBottom _ => exact hmem "goto_bottom" rfl
  | gotoTop _ => exact hmem "goto_top" rfl
  | gotoNamed => exact hmem "goto_named" rfl
  | delete _ => exact hmem "delete" rfl
  | yank _ => exact hmem "yank" rfl
  | deleteToPosition => exact hmem "delete_to_position" rfl
  | yankToPosition => exact hmem "yank_to_position" rfl
  | paste after =>
    cases after with
    | true => exact hmem "paste_after" rfl
    | false => exact hmem "paste_before" rfl
  | swap => exact hmem "swap" rfl
  | rotate => exact hmem "rotate" rfl
  | openItem above =>
    cases above with
    | false => exact hmem "open_below" rfl
    | true => exact hmem "open_above" rfl
  | change _ => exact hmem "change" rfl
  | insertMode => exact hmem "insert_mode" rfl
  | visualMode => exact hmem "visual_mode" rfl
  | commandMode => exact hmem "command_mode" rfl
  | search direction =>
    cases direction with
    | forward => exact hmem "search_forward" rfl
    | backward => exact hmem "search_backward" rfl
  | nextMatch reverse =>
    cases reverse with
    | false => exact hmem "next_match" rfl
    | true => exact hmem "prev_match" rfl
  | dotRepeat => exact hmem "dot_repeat" rfl
  | escape _ => exact hmem "escape" rfl

theorem Keymaps.default_ofLibrary : Keymaps.default.OfLibrary :=
  fun _ _ hm e he => (Keymaps.default_all hm e he).mono fun _ hb => hb.mem_library

end ModalStack
