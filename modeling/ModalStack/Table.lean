/-
# Tables

A table is an association list in which no key stands twice, so that its length counts its
keys.  It remembers the order in which keys first came: a key that is written again keeps
its place, and one that is removed and written anew goes to the end.
-/
import ModalStack.Assoc

namespace ModalStack

/-- A finite map that keeps the order of its keys. -/
structure Table (κ α : Type) where
  entries : List (κ × α)
  nodup : (Assoc.keys entries).Nodup
  deriving DecidableEq

namespace Table

variable {κ α : Type}

/-- The table without keys. -/
def empty : Table κ α := ⟨[], List.nodup_nil⟩

/-- The keys, in order. -/
def keys (t : Table κ α) : List κ := Assoc.keys t.entries

/-- How many keys there are. -/
def size (t : Table κ α) : Nat := t.entries.length

/-- No key has a value. -/
def isEmpty (t : Table κ α) : Bool := t.entries.isEmpty

variable [DecidableEq κ]

/-- The value under `key`. -/
def get? (t : Table κ α) (key : κ) : Option α := t.entries.lookup key

/-- The key has a value. -/
def contains (t : Table κ α) (key : κ) : Bool := (t.get? key).isSome

/-- Writes `value` under `key`, in the key's place if it has one and at the end if not. -/
def insert (t : Table κ α) (key : κ) (value : α) : Table κ α :=
  ⟨Assoc.insert key value t.entries, Assoc.nodup_keys_insert t.nodup⟩

/-- Removes `key`. -/
def erase (t : Table κ α) (key : κ) : Table κ α :=
  ⟨Assoc.erase key t.entries, Assoc.nodup_keys_erase t.nodup⟩

/-- The table with these pairs, written in order. -/
def ofList (l : List (κ × α)) : Table κ α := l.foldl (fun t e => t.insert e.1 e.2) empty

@[simp] theorem get?_empty (key : κ) : (empty : Table κ α).get? key = none := rfl

theorem get?_insert (t : Table κ α) (key k : κ) (value : α) :
    (t.insert key value).get? k = if key = k then some value else t.get? k :=
  Assoc.lookup_insert key k value t.entries

theorem get?_erase (t : Table κ α) (key k : κ) :
    (t.erase key).get? k = if key = k then none else t.get? k :=
  Assoc.lookup_erase key k t.entries

theorem get?_eq_none_iff {t : Table κ α} {key : κ} : t.get? key = none ↔ key ∉ t.keys :=
  Assoc.lookup_eq_none_iff

theorem get?_of_mem {t : Table κ α} {e : κ × α} (h : e ∈ t.entries) :
    t.get? e.1 = some e.2 :=
  Assoc.lookup_of_mem t.nodup h

theorem contains_iff {t : Table κ α} {key : κ} : t.contains key = true ↔ key ∈ t.keys := by
  rw [contains, Option.isSome_iff_ne_none, ne_eq, get?_eq_none_iff, Decidable.not_not]

end Table

end ModalStack
