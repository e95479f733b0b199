/-
# Keymaps

A keymap binds key tokens to actions, or to further keymaps that wait for more keys.  Besides
single tokens it may have keys of several characters, under which phrases are looked up
(`gg`, `dg`).

One keymap can be laid over another (`overlay`): where both have a keymap under a key, the
two are laid over each other in turn, and where they collide in any other way the upper one
wins.  The main statements are the two equations that say this key by key and for a whole
binding (`get?_overlay`, and the defining equations of `Binding.overlaid`).
-/
import ModalStack.Action

namespace ModalStack

/-! ## 1. Tables of keys -/

/-- A named association list from keys to anything. -/
structure KeyTable (β : Type) where
  name : String
  entries : List (String × β)

namespace KeyTable

variable {β : Type}

/-- The table of this name without keys. -/
def empty (name : String) : KeyTable β := ⟨name, []⟩

/-- What is under `key`. -/
def get? (t : KeyTable β) (key : String) : Option β := t.entries.lookup key

/-- Binds `key`, in the place of what was there. -/
def insert (t : KeyTable β) (key : String) (binding : β) : KeyTable β :=
  { t with entries := Assoc.insert key binding t.entries }

/-- Removes `key`. -/
def erase (t : KeyTable β) (key : String) : KeyTable β :=
  { t with entries := Assoc.erase key t.entries }

/-- How many keys there are. -/
def size (t : KeyTable β) : Nat := t.entries.length

/-- No key is bound. -/
def isEmpty (t : KeyTable β) : Bool := t.entries.isEmpty

/-- The table with these entries, bound in order. -/
def ofList (name : String) (entries : List (String × β)) : KeyTable β :=
  entries.foldl (fun t e => t.insert e.1 e.2) (empty name)

theorem get?_insert (t : KeyTable β) (key k : String) (binding : β) :
    (t.insert key binding).get? k = if key = k then some binding else t.get? k :=
  Assoc.lookup_insert key k binding t.entries

theorem get?_erase (t : KeyTable β) (key k : String) :
    (t.erase key).get? k = if key = k then none else t.get? k :=
  Assoc.lookup_erase key k t.entries

/-- What is found under a key is an entry. -/
theorem mem_of_get? {t : KeyTable β} {key : String} {b : β} (h : t.get? key = some b) :
    (key, b) ∈ t.entries := by
  obtain ⟨before, after, heq, -⟩ := List.lookup_eq_some_iff.mp h
  rw [heq]
  exact List.mem_append_right _ List.mem_cons_self

end KeyTable

/-! ## 2. Keymaps and walks through them -/

/-- What a key leads to. -/
inductive Binding where
  | action (a : Action)
  | submap (m : KeyTable Binding)

/-- A table from keys to what they lead to. -/
abbrev Keymap := KeyTable Binding

/-- The action directly under `key`. -/
def Keymap.action? (m : Keymap) (key : String) : Option Action :=
  match m.get? key with
  | some (.action a) => some a
  | _ => none

/-- Where a list of tokens leads. -/
inductive Walk where
  /-- Its last token is bound to an action. -/
  | found (a : Action)
  /-- Its last token is bound to a keymap. -/
  | unfinished
  /-- It leads nowhere: it is empty, a token is not bound, or an action comes too early. -/
  | lost

/-- Walks through keymaps, one token after the other. -/
def Keymap.walk (m : Keymap) : List String → Walk
  | [] => .lost
  | key :: rest =>
    match m.get? key with
    | none => .lost
    | some (.action a) => if rest.isEmpty then .found a else .lost
    | some (.submap next) => if rest.isEmpty then .unfinished else Keymap.walk next rest

/-! ## 3. Laying one keymap over another -/

mutual

/-- What a key leads to once a keymap is laid over it that has `upper` under the same key. -/
def Binding.overlaid : Binding → Option Binding → Binding
  | lower, none => lower
  | .submap lower, some (.submap upper) => .submap (overlayTable lower upper)
  | _, some upper => upper

/-- `upper` laid over `lower`. -/
def overlayTable : KeyTable Binding → KeyTable Binding → KeyTable Binding
  | ⟨name, entries⟩, upper =>
    ⟨name, overlayEntries entries upper ++
      upper.entries.filter fun e => !(Assoc.keys entries).contains e.1⟩

/-- The entries of the lower table, each overlaid by what the upper one has under its key. -/
def overlayEntries : List (String × Binding) → KeyTable Binding → List (String × Binding)
  | [], _ => []
  | (key, lower) :: rest, upper =>
    (key, lower.overlaid (upper.get? key)) :: overlayEntries rest upper

end

/-- The keymap with `upper` laid over it. -/
def Keymap.overlay (lower upper : Keymap) : Keymap := overlayTable lower upper

theorem lookup_overlayEntries (entries : List (String × Binding)) (upper : Keymap)
    (key : String) :
    (overlayEntries entries upper).lookup key =
      (entries.lookup key).map fun lower => lower.overlaid (upper.get? key) := by
  induction entries with
  | nil => rfl
  | cons e rest ih =>
    obtain ⟨k, lower⟩ := e
    rw [overlayEntries, Assoc.lookup_cons, Assoc.lookup_cons, ih]
    by_cases h : k = key
    · subst h; simp
    · simp [h]

/-- **What an overlay binds.**  A key of the lower keymap leads to what it led to, overlaid
by what the upper one has under it; any other key leads where the upper keymap leads. -/
theorem Keymap.get?_overlay (lower upper : Keymap) (key : String) :
    (lower.overlay upper).get? key =
      match lower.get? key with
      | some ours => some (ours.overlaid (upper.get? key))
      | none => upper.get? key := by
  obtain ⟨name, entries⟩ := lower
  simp only [Keymap.overlay, overlayTable, KeyTable.get?]
  rw [Assoc.lookup_append, lookup_overlayEntries,
    Assoc.lookup_filter (fun k => !(Assoc.keys entries).contains k)]
  cases h : entries.lookup key with
  | some ours => simp [KeyTable.get?]
  | none =>
    have hk : key ∉ Assoc.keys entries := Assoc.lookup_eq_none_iff.mp h
    simp [hk]

/-! ## 4. One keymap for each mode -/

/-- The keymaps of an engine.  Keys of the search mode are typed, not looked up. -/
structure Keymaps where
  normal : Keymap
  insert : Keymap
  visual : Keymap
  command : Keymap

namespace Keymaps

/-- The keymap of a mode. -/
def forMode? (k : Keymaps) : Mode → Option Keymap
  | .normal => some k.normal
  | .insert => some k.insert
  | .visual => some k.visual
  | .command => some k.command
  | .search => none

/-- The keymaps with that of one mode changed. -/
def modify (k : Keymaps) (mode : Mode) (f : Keymap → Keymap) : Keymaps :=
  match mode with
  | .normal => { k with normal := f k.normal }
  | .insert => { k with insert := f k.insert }
  | .visual => { k with visual := f k.visual }
  | .command => { k with command := f k.command }
  | .search => k

end Keymaps

end ModalStack
