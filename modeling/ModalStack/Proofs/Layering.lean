/-
# Keymaps in layers

A host lays a keymap of its own over a default one, and perhaps another over that.  What keys
lead to then is settled by the two keymaps one by one, without a look at how they were joined
(`Keymap.walk_overlay`): where the upper one leads anywhere, it decides; where an action of the
upper one comes too early, nothing is left of what the lower one had behind it; and everywhere
else the lower one leads where it led.

So an action of the lower keymap is kept exactly if the upper one leads nowhere with the same
keys and to no action with the first of them.  Kept means that it is the lower one's own: the
upper keymap may happen to bind the very same action, and then that one is found.  Exchanging
the actions of the upper keymap for others tells the two apart (`Keymap.Keeps`).

A keymap laid over another for a second time adds nothing, since all that it has is there
already, key by key (`Keymap.Unique.overlay_overlay`).
-/
import ModalStack.Keymap.Default

namespace ModalStack

/-! ## 1. Walks, one key at a time -/

namespace Keymap

variable {m m' next lower upper : Keymap} {key : String} {keys rest : List String} {a : Action}

theorem walk_of_unbound (h : m.get? key = none) (rest : List String) :
    m.walk (key :: rest) = .lost := by
  simp only [walk, h]

theorem walk_of_action (h : m.get? key = some (.action a)) (rest : List String) :
    m.walk (key :: rest) = if rest.isEmpty then .found a else .lost := by
  simp only [walk, h]

theorem walk_of_submap (h : m.get? key = some (.submap next)) (rest : List String) :
    m.walk (key :: rest) = if rest.isEmpty then .unfinished else next.walk rest := by
  simp only [walk, h]

/-- Only what is under the first key matters. -/
theorem walk_congr (h : m.get? key = m'.get? key) (rest : List String) :
    m.walk (key :: rest) = m'.walk (key :: rest) := by
  rw [walk, walk, h]

/-- An action comes too early: some of the keys, but not all of them, lead to it. -/
def CutsOff (m : Keymap) (keys : List String) : Prop :=
  ∃ front a, front <+: keys ∧ front ≠ keys ∧ m.walk front = .found a

theorem not_cutsOff_nil : ¬ m.CutsOff [] := by
  rintro ⟨front, a, hfront, hne, -⟩
  exact hne (List.prefix_nil.mp hfront)

theorem not_cutsOff_of_unbound (h : m.get? key = none) : ¬ m.CutsOff (key :: rest) := by
  rintro ⟨front, a, hfront, -, hwalk⟩
  rcases List.prefix_cons_iff.mp hfront with rfl | ⟨more, rfl, -⟩
  · exact absurd hwalk (by simp [walk])
  · rw [walk_of_unbound h] at hwalk
    exact absurd hwalk (by simp)

theorem cutsOff_of_action (h : m.get? key = some (.action a)) (hne : rest ≠ []) :
    m.CutsOff (key :: rest) := by
  refine ⟨[key], a, List.prefix_append [key] rest, ?_, ?_⟩
  · intro heq
    exact hne (List.cons.inj heq).2.symm
  · rw [walk_of_action h]
    rfl

theorem cutsOff_of_submap (h : m.get? key = some (.submap next)) :
    m.CutsOff (key :: rest) ↔ next.CutsOff rest := by
  constructor
  · rintro ⟨front, a, hfront, hne, hwalk⟩
    rcases List.prefix_cons_iff.mp hfront with rfl | ⟨more, rfl, hmore⟩
    · exact absurd hwalk (by simp [walk])
    · rw [walk_of_submap h] at hwalk
      split at hwalk
      · exact absurd hwalk (by simp)
      · exact ⟨more, a, hmore, fun heq => hne (by rw [heq]), hwalk⟩
  · rintro ⟨more, a, hmore, hne, hwalk⟩
    refine ⟨key :: more, a, List.cons_prefix_cons.mpr ⟨rfl, hmore⟩, ?_, ?_⟩
    · intro heq
      exact hne (List.cons.inj heq).2
    · have hsome : more.isEmpty = false := by
        cases more with
        | nil => exact absurd hwalk (by simp [walk])
        | cons _ _ => rfl
      rw [walk_of_submap h, hsome]
      exact hwalk

/-! ## 2. Walks through two layers -/

theorem overlay_of_unbound (h : upper.get? key = none) :
    (lower.overlay upper).get? key = lower.get? key := by
  rw [get?_overlay, h]
  cases lower.get? key with
  | none => rfl
  | some b => cases b <;> rfl

theorem overlay_of_action (h : upper.get? key = some (.action a)) :
    (lower.overlay upper).get? key = some (.action a) := by
  rw [get?_overlay, h]
  cases lower.get? key with
  | none => rfl
  | some b => cases b <;> rfl

theorem overlay_of_submaps {inner : Keymap} (hl : lower.get? key = some (.submap inner))
    (h : upper.get? key = some (.submap next)) :
    (lower.overlay upper).get? key = some (.submap (inner.overlay next)) := by
  rw [get?_overlay, hl, h]
  rfl

/-- A keymap takes the place of an action, and of nothing. -/
theorem overlay_of_submap (hl : ∀ inner, lower.get? key ≠ some (.submap inner))
    (h : upper.get? key = some (.submap next)) :
    (lower.overlay upper).get? key = some (.submap next) := by
  rw [get?_overlay, h]
  cases hb : lower.get? key with
  | none => rfl
  | some b =>
    cases b with
    | action _ => rfl
    | submap inner => exact absurd hb (hl inner)

/-- Where there is no further keymap, more than one key leads nowhere. -/
theorem walk_of_not_submap (hl : ∀ inner, lower.get? key ≠ some (.submap inner))
    (hne : rest ≠ []) : lower.walk (key :: rest) = .lost := by
  cases hb : lower.get? key with
  | none => exact walk_of_unbound hb rest
  | some b =>
    cases b with
    | action a =>
      rw [walk_of_action hb]
      simp [hne]
    | submap inner => exact absurd hb (hl inner)

/-- **What keys lead to in two layers.**  Where the upper keymap leads to an action or to a
further keymap, it decides.  Where it leads nowhere since an action of its own comes too early,
nothing is found.  Everywhere else the lower keymap leads where it led. -/
theorem walk_overlay (lower upper : Keymap) (keys : List String) :
    (upper.walk keys ≠ .lost → (lower.overlay upper).walk keys = upper.walk keys) ∧
      (upper.walk keys = .lost → upper.CutsOff keys → (lower.overlay upper).walk keys = .lost) ∧
      (upper.walk keys = .lost → ¬ upper.CutsOff keys →
        (lower.overlay upper).walk keys = lower.walk keys) := by
  -- along the keys, through both keymaps at once as long as both have a further keymap
  induction keys generalizing lower upper with
  | nil =>
    exact ⟨fun h => absurd rfl h, fun _ hcuts => absurd hcuts not_cutsOff_nil, fun _ _ => rfl⟩
  | cons key rest ih =>
    cases hu : upper.get? key with
    | none =>
      have hsame : (lower.overlay upper).walk (key :: rest) = lower.walk (key :: rest) :=
        walk_congr (overlay_of_unbound hu) rest
      exact ⟨fun h => absurd (walk_of_unbound hu rest) h,
        fun _ hcuts => absurd hcuts (not_cutsOff_of_unbound hu), fun _ _ => hsame⟩
    | some b =>
      cases b with
      | action a =>
        have hsame : (lower.overlay upper).walk (key :: rest) = upper.walk (key :: rest) :=
          walk_congr ((overlay_of_action hu).trans hu.symm) rest
        refine ⟨fun _ => hsame, fun hlost _ => hsame.trans hlost, fun hlost hcuts => ?_⟩
        rw [walk_of_action hu] at hlost
        have hne : rest ≠ [] := by
          rintro rfl
          exact absurd hlost (by simp)
        exact absurd (cutsOff_of_action hu hne) hcuts
      | submap next =>
        by_cases hl : ∀ inner, lower.get? key ≠ some (.submap inner)
        · have hsame : (lower.overlay upper).walk (key :: rest) = upper.walk (key :: rest) :=
            walk_congr ((overlay_of_submap hl hu).trans hu.symm) rest
          refine ⟨fun _ => hsame, fun hlost _ => hsame.trans hlost, fun hlost _ => ?_⟩
          have hne : rest ≠ [] := by
            rintro rfl
            rw [walk_of_submap hu] at hlost
            exact absurd hlost (by simp)
          rw [hsame, hlost, walk_of_not_submap hl hne]
        · obtain ⟨inner, hl⟩ : ∃ inner, lower.get? key = some (.submap inner) := by
            simpa using hl
          rw [walk_of_submap (overlay_of_submaps hl hu), walk_of_submap hu, walk_of_submap hl,
            cutsOff_of_submap hu]
          cases rest with
          | nil => exact ⟨fun _ => rfl, fun hlost => absurd hlost (by simp),
              fun hlost => absurd hlost (by simp)⟩
          | cons _ _ => exact ih inner next

end Keymap

/-! ## 3. Whose action it is -/

mutual

/-- The binding with every action exchanged for another. -/
def Binding.relabel (f : Action → Action) : Binding → Binding
  | .action a => .action (f a)
  | .submap m => .submap (relabelTable f m)

/-- The keymap with every action that it leads to exchanged. -/
def relabelTable (f : Action → Action) : KeyTable Binding → KeyTable Binding
  | ⟨name, entries⟩ => ⟨name, relabelEntries f entries⟩

/-- The entries with every action exchanged that they lead to. -/
def relabelEntries (f : Action → Action) : List (String × Binding) → List (String × Binding)
  | [] => []
  | (key, b) :: rest => (key, b.relabel f) :: relabelEntries f rest

end

/-- Where the keys lead once the actions are exchanged. -/
def Walk.relabel (f : Action → Action) : Walk → Walk
  | .found a => .found (f a)
  | .unfinished => .unfinished
  | .lost => .lost

theorem Walk.relabel_eq_lost_iff {f : Action → Action} {w : Walk} :
    w.relabel f = .lost ↔ w = .lost := by
  cases w <;> simp [Walk.relabel]

namespace Keymap

/-- The keymap with every action that it leads to exchanged for another. -/
def relabel (f : Action → Action) (m : Keymap) : Keymap := relabelTable f m

variable {f : Action → Action} {m lower upper : Keymap} {keys : List String} {a : Action}

theorem lookup_relabelEntries (f : Action → Action) (entries : List (String × Binding))
    (key : String) :
    (relabelEntries f entries).lookup key = (entries.lookup key).map (Binding.relabel f) := by
  induction entries with
  | nil => rfl
  | cons e rest ih =>
    obtain ⟨k, b⟩ := e
    rw [relabelEntries, Assoc.lookup_cons, Assoc.lookup_cons, ih]
    by_cases h : k = key <;> simp [h]

theorem get?_relabel (m : Keymap) (key : String) :
    (m.relabel f).get? key = (m.get? key).map (Binding.relabel f) := by
  obtain ⟨name, entries⟩ := m
  exact lookup_relabelEntries f entries key

/-- Exchanging actions changes no walk but for the action at its end. -/
theorem walk_relabel (m : Keymap) (keys : List String) :
    (m.relabel f).walk keys = (m.walk keys).relabel f := by
  induction keys generalizing m with
  | nil => rfl
  | cons key rest ih =>
    cases hb : m.get? key with
    | none =>
      have hb' : (m.relabel f).get? key = none := by rw [get?_relabel, hb]; rfl
      rw [walk_of_unbound hb, walk_of_unbound hb']
      rfl
    | some b =>
      cases b with
      | action a =>
        have hb' : (m.relabel f).get? key = some (.action (f a)) := by
          rw [get?_relabel, hb]
          rfl
        rw [walk_of_action hb, walk_of_action hb']
        split <;> rfl
      | submap next =>
        have hb' : (m.relabel f).get? key = some (.submap (relabel f next)) := by
          rw [get?_relabel, hb]
          rfl
        rw [walk_of_submap hb, walk_of_submap hb']
        split
        · rfl
        · exact ih next

theorem cutsOff_relabel : (m.relabel f).CutsOff keys ↔ m.CutsOff keys := by
  constructor
  · rintro ⟨front, a, hfront, hne, hwalk⟩
    rw [walk_relabel] at hwalk
    cases hw : m.walk front with
    | found b => exact ⟨front, b, hfront, hne, hw⟩
    | unfinished => exact absurd hwalk (by simp [hw, Walk.relabel])
    | lost => exact absurd hwalk (by simp [hw, Walk.relabel])
  · rintro ⟨front, a, hfront, hne, hwalk⟩
    exact ⟨front, f a, hfront, hne, by rw [walk_relabel, hwalk]; rfl⟩

/-- The lower keymap's own action is kept under the upper one: it is found whatever the actions
of the upper keymap are exchanged for. -/
def Keeps (lower upper : Keymap) (keys : List String) (a : Action) : Prop :=
  ∀ f : Action → Action, (lower.overlay (upper.relabel f)).walk keys = .found a

/-- **What is kept of the lower keymap**: the actions to which the upper one has neither an
action nor a keymap with the same keys, and no action with the first of them. -/
theorem keeps_iff (h : lower.walk keys = .found a) :
    lower.Keeps upper keys a ↔ upper.walk keys = .lost ∧ ¬ upper.CutsOff keys := by
  constructor
  · intro hkeeps
    -- an action of another name in the place of every action of the upper keymap
    let other : Action → Action := fun _ => ⟨a.name ++ "'", a.run⟩
    have hother := hkeeps other
    obtain ⟨hupper, hcut, -⟩ := lower.walk_overlay (upper.relabel other) keys
    simp only [walk_relabel, cutsOff_relabel, ne_eq, Walk.relabel_eq_lost_iff] at hupper hcut
    have hlost : upper.walk keys = .lost := by
      cases hw : upper.walk keys with
      | lost => rfl
      | unfinished =>
        rw [hupper (by simp [hw]), hw] at hother
        exact absurd hother (by simp [Walk.relabel])
      | found b =>
        rw [hupper (by simp [hw]), hw] at hother
        have hname : a.name ++ "'" = a.name := congrArg Action.name (Walk.found.inj hother)
        exact absurd hname (by simp)
    refine ⟨hlost, fun hcuts => ?_⟩
    rw [hcut hlost hcuts] at hother
    exact absurd hother (by simp)
  · rintro ⟨hlost, hcuts⟩ f
    obtain ⟨-, -, hlower⟩ := lower.walk_overlay (upper.relabel f) keys
    rw [hlower (by rw [walk_relabel, hlost]; rfl) (mt cutsOff_relabel.mp hcuts), h]

end Keymap

/-! ## 4. A layer laid twice -/

/-- No keymap that the binding leads to has two entries under one key. -/
inductive Binding.Unique : Binding → Prop
  | action (a : Action) : Binding.Unique (.action a)
  | submap {m : Keymap} : (Assoc.keys m.entries).Nodup → (∀ e ∈ m.entries, Binding.Unique e.2) →
      Binding.Unique (.submap m)

/-- No key is there twice, neither in the keymap nor in any to which it leads. -/
structure Keymap.Unique (m : Keymap) : Prop where
  nodup : (Assoc.keys m.entries).Nodup
  entries : ∀ e ∈ m.entries, e.2.Unique

theorem Binding.overlaid_none (b : Binding) : b.overlaid none = b := by
  cases b <;> rfl

namespace Keymap

variable {m lower upper : Keymap}

theorem overlayEntries_eq_map (entries : List (String × Binding)) (upper : Keymap) :
    overlayEntries entries upper
      = entries.map fun e => (e.1, e.2.overlaid (upper.get? e.1)) := by
  induction entries with
  | nil => rfl
  | cons e rest ih =>
    obtain ⟨key, lower⟩ := e
    rw [overlayEntries, ih, List.map_cons]

theorem overlay_eq (lower upper : Keymap) :
    lower.overlay upper =
      ⟨lower.name, (lower.entries.map fun e => (e.1, e.2.overlaid (upper.get? e.1))) ++
        upper.entries.filter fun e => !(Assoc.keys lower.entries).contains e.1⟩ := by
  obtain ⟨name, entries⟩ := lower
  rw [overlay, overlayTable, overlayEntries_eq_map]

/-- An overlay has the keys of both keymaps. -/
theorem mem_keys_overlay_of_upper {key : String} (h : key ∈ Assoc.keys upper.entries) :
    key ∈ Assoc.keys (lower.overlay upper).entries := by
  obtain ⟨e, he, rfl⟩ := List.mem_map.mp h
  rw [overlay_eq, Assoc.keys, List.map_append, List.map_map]
  by_cases hkey : e.1 ∈ Assoc.keys lower.entries
  · exact List.mem_append_left _ hkey
  · refine List.mem_append_right _ (List.mem_map_of_mem (List.mem_filter.mpr ⟨he, ?_⟩))
    simpa using hkey

/-- A keymap laid where all its keys are there already changes entries, but adds none. -/
theorem overlay_of_keys (h : ∀ key ∈ Assoc.keys upper.entries, key ∈ Assoc.keys lower.entries) :
    lower.overlay upper =
      ⟨lower.name, lower.entries.map fun e => (e.1, e.2.overlaid (upper.get? e.1))⟩ := by
  have hnone : (upper.entries.filter fun e => !(Assoc.keys lower.entries).contains e.1) = [] := by
    refine List.filter_eq_nil_iff.mpr fun e he => ?_
    simpa using h e.1 (List.mem_map_of_mem he)
  rw [overlay_eq, hnone, List.append_nil]

/-- The keymap laid over itself is itself, if that holds of all that it leads to. -/
theorem overlay_self_of (hm : (Assoc.keys m.entries).Nodup)
    (h : ∀ e ∈ m.entries, e.2.overlaid (some e.2) = e.2) : m.overlay m = m := by
  have hmap : (m.entries.map fun e => (e.1, e.2.overlaid (m.get? e.1))) = m.entries := by
    refine (List.map_congr_left fun e he => ?_).trans (List.map_id _)
    rw [KeyTable.get?, Assoc.lookup_of_mem hm he, h e he]
    rfl
  rw [overlay_of_keys fun _ hkey => hkey, hmap]

/-- The same for a keymap laid over another twice. -/
theorem overlay_overlay_of (hm : (Assoc.keys upper.entries).Nodup)
    (hself : ∀ e ∈ upper.entries, e.2.overlaid (some e.2) = e.2)
    (h : ∀ e ∈ upper.entries, ∀ b : Binding,
      (b.overlaid (some e.2)).overlaid (some e.2) = b.overlaid (some e.2)) :
    (lower.overlay upper).overlay upper = lower.overlay upper := by
  have hentries : ((lower.overlay upper).entries.map fun e => (e.1, e.2.overlaid (upper.get? e.1)))
      = (lower.overlay upper).entries := by
    refine (List.map_congr_left fun e he => ?_).trans (List.map_id _)
    refine Prod.ext rfl ?_
    rw [overlay_eq] at he
    rcases List.mem_append.mp he with he | he
    · -- an entry of the lower keymap, that has what is laid over it already
      obtain ⟨e', -, rfl⟩ := List.mem_map.mp he
      dsimp only
      cases hb : upper.get? e'.1 with
      | none => exact (Binding.overlaid_none _).trans rfl
      | some b => exact h _ (KeyTable.mem_of_get? hb) _
    · have he' := (List.mem_filter.mp he).1
      rw [KeyTable.get?, Assoc.lookup_of_mem hm he', hself e he']
      rfl
  rw [overlay_of_keys fun _ => mem_keys_overlay_of_upper, hentries]

end Keymap

namespace Binding.Unique

theorem overlaid_self : ∀ {b : Binding}, b.Unique → b.overlaid (some b) = b
  | _, .action _ => rfl
  | _, .submap hm h => congrArg Binding.submap
      (Keymap.overlay_self_of hm fun e he => (h e he).overlaid_self)

/-- What a binding is laid over has it already the second time. -/
theorem overlaid_overlaid : ∀ {upper : Binding}, upper.Unique → ∀ lower : Binding,
    (lower.overlaid (some upper)).overlaid (some upper) = lower.overlaid (some upper)
  | _, .action _, .action _ => rfl
  | _, .action _, .submap _ => rfl
  | _, .submap hm h, .action _ => (Binding.Unique.submap hm h).overlaid_self
  | _, .submap hm h, .submap _ => congrArg Binding.submap
      (Keymap.overlay_overlay_of hm (fun e he => (h e he).overlaid_self)
        fun e he => (h e he).overlaid_overlaid)

end Binding.Unique

namespace Keymap

variable {lower upper : Keymap}

/-- **A keymap laid over another twice is laid over it once.** -/
theorem Unique.overlay_overlay (h : upper.Unique) (lower : Keymap) :
    (lower.overlay upper).overlay upper = lower.overlay upper :=
  overlay_overlay_of h.nodup (fun e he => (h.entries e he).overlaid_self)
    fun e he => (h.entries e he).overlaid_overlaid

/-- As far as keys go, the same holds of any keymap. -/
theorem walk_overlay_overlay (lower upper : Keymap) (keys : List String) :
    ((lower.overlay upper).overlay upper).walk keys = (lower.overlay upper).walk keys := by
  obtain ⟨hupper, hcut, hlower⟩ := lower.walk_overlay upper keys
  obtain ⟨hupper', hcut', hlower'⟩ := (lower.overlay upper).walk_overlay upper keys
  by_cases hlost : upper.walk keys = .lost
  · by_cases hcuts : upper.CutsOff keys
    · rw [hcut' hlost hcuts, hcut hlost hcuts]
    · exact hlower' hlost hcuts
  · rw [hupper' hlost, hupper hlost]

/-! ## 5. What a layer means -/

/-- **What a layer means.**  One keymap is laid over another.  Where the upper one leads to an
action or to a further keymap, so do both; where it leads nowhere, keys of which some lead to an
action of it lead nowhere in both, and all others where they lead in the lower one.  So an action
of the lower keymap is kept exactly if the upper one has neither an action nor a keymap with the
same keys, and no action with the first of them.  The same layer laid once more changes nothing:
no keys lead elsewhere, and, no key being there twice, the keymap is the very same. -/
theorem overlaid_walks (lower upper : Keymap) :
    (∀ keys,
      (upper.walk keys ≠ .lost → (lower.overlay upper).walk keys = upper.walk keys) ∧
      (upper.walk keys = .lost → upper.CutsOff keys →
        (lower.overlay upper).walk keys = .lost) ∧
      (upper.walk keys = .lost → ¬ upper.CutsOff keys →
        (lower.overlay upper).walk keys = lower.walk keys)) ∧
    (∀ keys a, lower.walk keys = .found a →
      (lower.Keeps upper keys a ↔ upper.walk keys = .lost ∧ ¬ upper.CutsOff keys)) ∧
    (∀ keys, ((lower.overlay upper).overlay upper).walk keys = (lower.overlay upper).walk keys) ∧
    (upper.Unique → (lower.overlay upper).overlay upper = lower.overlay upper) :=
  ⟨lower.walk_overlay upper, fun _ _ => keeps_iff, lower.walk_overlay_overlay upper,
    fun h => h.overlay_overlay lower⟩

/-- A deletion without its second `d` and a `jj` over the keys of normal mode: `dd` is cut off,
`j` waits for more keys, and `yy` is kept. -/
theorem overlaid_walks_of_own_keys :
    let lower := defaultNormal
    let upper : Keymap :=
      ⟨"own", [bind "d" "drop" Action.delete, bindDoubled "j" "more" "copy" Action.yank]⟩
    (upper.walk ["j"] ≠ .lost ∧ upper.walk ["d", "d"] = .lost ∧ upper.CutsOff ["d", "d"] ∧
        upper.walk ["y", "y"] = .lost ∧ ¬ upper.CutsOff ["y", "y"] ∧
        lower.walk ["y", "y"] = .found ⟨"yank", Action.yank⟩ ∧ upper.Unique) ∧
      (lower.overlay upper).walk ["j"] = .unfinished ∧
      (lower.overlay upper).walk ["d", "d"] = .lost ∧
      (lower.overlay upper).walk ["y", "y"] = .found ⟨"yank", Action.yank⟩ ∧
      lower.Keeps upper ["y", "y"] ⟨"yank", Action.yank⟩ ∧
      (lower.overlay upper).overlay upper = lower.overlay upper := by
  intro lower upper
  have hwaits : upper.walk ["j"] = .unfinished := rfl
  have hj : upper.walk ["j"] ≠ .lost := by simp [hwaits]
  have hd : upper.CutsOff ["d", "d"] := cutsOff_of_action rfl (by simp)
  have hy : ¬ upper.CutsOff ["y", "y"] := not_cutsOff_of_unbound rfl
  have hyank : lower.walk ["y", "y"] = .found ⟨"yank", Action.yank⟩ := rfl
  have hunique : upper.Unique := by
    refine ⟨by decide, ?_⟩
    simp only [upper, List.forall_mem_cons]
    refine ⟨.action _, .submap (by decide) ?_, by simp⟩
    simp only [List.forall_mem_cons]
    exact ⟨.action _, by simp⟩
  obtain ⟨hwalks, hkeeps, -, htwice⟩ := overlaid_walks lower upper
  exact ⟨⟨hj, rfl, hd, rfl, hy, hyank, hunique⟩, (hwalks ["j"]).1 hj,
    (hwalks ["d", "d"]).2.1 rfl hd, ((hwalks ["y", "y"]).2.2 rfl hy).trans hyank,
    (hkeeps _ _ hyank).mpr ⟨rfl, hy⟩, htwice hunique⟩

end Keymap

end ModalStack
