/-
# Notes that are moved

Deleting, copying and pasting move notes between the stack and the registers, and none is lost on
the way.  Whatever positions a command names, in whatever order and also beyond the top, if it names
none of them twice:

* a deletion leaves the notes at all other positions in their order (`NoteStack.others`), although
  it takes them away one by one and every one that goes shifts those above it;
* it stores the notes at the positions that there are, in the order in which they are named
  (`NoteStack.Lists`), and these are just the notes that are gone
  (`NoteStack.others_append_perm`);
* a copy stores the same and leaves the notes alone;
* a register that is pasted several times comes in as one block, although it is put in note by note
  and the later times before the earlier ones.

`NoteStack.movements` is all of this at once.
-/
import Mathlib.Data.List.Nodup
import ModalStack.Proofs.CheckedNotes
import ModalStack.Proofs.Removals

namespace ModalStack

open scoped List

/-- The command deletes the items at these positions into a register. -/
inductive Command.Deletes (positions : List Nat) (register : String) : Command → Prop
  | items : Deletes positions register (.deleteItems positions register)
  | span (target : Nat) : Deletes positions register (.deleteToPosition positions target register)

/-- The command copies the items at these positions into a register. -/
inductive Command.Copies (positions : List Nat) (register : String) : Command → Prop
  | items : Copies positions register (.yankItems positions register)
  | span (target : Nat) : Copies positions register (.yankToPosition positions target register)

namespace NoteStack

variable {s : NoteStack} {positions : List Nat} {register : String}

/-! ## 1. What is taken -/

/-- The content is one item for each of the positions that there are, in their order. -/
def Lists (items : List String) (positions : List Nat) (content : List String) : Prop :=
  content.map some = (positions.filter (· ≤ items.length)).map fun p => items[p - 1]?

/-- What is taken are the items at the positions that there are. -/
theorem take_lists (h : ∀ p ∈ positions, 1 ≤ p) : Lists s.items positions (s.take positions) := by
  unfold Lists take
  induction positions with
  | nil => rfl
  | cons p rest ih =>
    obtain ⟨hp, hrest⟩ := List.forall_mem_cons.mp h
    by_cases hle : p ≤ s.items.length
    · have hitem : s.items[p - 1]? = some s.items[p - 1] := List.getElem?_eq_getElem (by omega)
      simp only [List.filterMap_cons, hitem, List.map_cons]
      rw [ih hrest, List.filter_cons_of_pos (by simpa using hle), List.map_cons, hitem]
    · have hnone : s.items[p - 1]? = none := List.getElem?_eq_none (by omega)
      simp only [List.filterMap_cons, hnone]
      rw [ih hrest, List.filter_cons_of_neg (by simpa using hle)]

/-- The items that are left, and those at the positions in ascending order, are all. -/
theorem othersFrom_append_perm (items : List String) (start : Nat) :
    othersFrom start items positions
      ++ ((List.range' start items.length).filter (· ∈ positions)).filterMap
          (fun p => items[p - start]?) ~ items := by
  induction items generalizing start with
  | nil => simp [othersFrom]
  | cons x items ih =>
    -- above the first item all positions count from the next one
    have hnext : ((List.range' (start + 1) items.length).filter (· ∈ positions)).filterMap
          (fun p => (x :: items)[p - start]?)
        = ((List.range' (start + 1) items.length).filter (· ∈ positions)).filterMap
            (fun p => items[p - (start + 1)]?) := by
      refine List.filterMap_congr fun p hp => ?_
      have hle : start + 1 ≤ p := (List.mem_range'_1.mp (List.mem_filter.mp hp).1).1
      obtain ⟨k, rfl⟩ := Nat.exists_eq_add_of_le hle
      have hshift : start + 1 + k - start = k + 1 := by omega
      rw [hshift, List.getElem?_cons_succ, Nat.add_sub_cancel_left]
    rw [List.length_cons, List.range'_succ]
    by_cases hmem : start ∈ positions
    · have hfirst : (x :: items)[start - start]? = some x := by simp
      rw [othersFrom_cons_of_mem hmem, List.filter_cons_of_pos (by simpa using hmem)]
      simp only [List.filterMap_cons, hfirst]
      rw [hnext]
      exact List.perm_middle.trans ((ih (start + 1)).cons x)
    · rw [othersFrom_cons_of_not_mem hmem, List.filter_cons_of_neg (by simpa using hmem), hnext]
      exact (ih (start + 1)).cons x

/-- **Nothing is lost**: the items that are left and those that were taken are all. -/
theorem others_append_perm (hnodup : positions.Nodup) (h : ∀ p ∈ positions, 1 ≤ p) :
    others s.items positions ++ s.take positions ~ s.items := by
  have hmem : ∀ p, p ∈ (List.range' 1 s.items.length).filter (· ∈ positions) ↔
      p ∈ positions.filter (· ≤ s.items.length) := by
    intro p
    simp only [List.mem_filter, List.mem_range'_1, decide_eq_true_eq]
    constructor
    · rintro ⟨⟨-, hlt⟩, hp⟩
      exact ⟨hp, by omega⟩
    · rintro ⟨hp, hle⟩
      exact ⟨⟨h p hp, by omega⟩, hp⟩
  have hrange : (List.range' 1 s.items.length).Nodup := List.nodup_range'
  have hsorted : (List.range' 1 s.items.length).filter (· ∈ positions)
      ~ positions.filter (· ≤ s.items.length) :=
    (List.perm_ext_iff_of_nodup (hrange.filter _) (hnodup.filter _)).mpr hmem
  have htaken : s.take positions
      = (positions.filter (· ≤ s.items.length)).filterMap fun p => s.items[p - 1]? := by
    rw [take, List.filterMap_filter]
    refine List.filterMap_congr fun p hp => ?_
    have hp₁ : 1 ≤ p := h p hp
    split
    · rfl
    · rename_i hgt
      exact List.getElem?_eq_none (by simp only [decide_eq_true_eq] at hgt; omega)
  rw [htaken]
  exact ((hsorted.filterMap _).symm.append_left _).trans (othersFrom_append_perm s.items 1)

/-! ## 2. What is stored -/

/-- The content is stored in the register and in the unnamed one, and the others are as they
were. -/
def Stores (s t : NoteStack) (register : String) (content : List String) : Prop :=
  ∀ name, t.registers.get? name =
    if name = register ∨ name = unnamedRegister then some content else s.registers.get? name

theorem store_stores (s : NoteStack) (register : String) (content : List String) :
    s.Stores (s.store register content) register content := by
  intro name
  simp only [store, Table.get?_insert]
  by_cases hunnamed : name = unnamedRegister
  · simp [hunnamed]
  · by_cases hregister : name = register
    · simp [hregister]
    · simp [hunnamed, hregister, Ne.symm hunnamed, Ne.symm hregister]

/-! ## 3. Movements -/

/-- **A deletion** leaves the other items and stores those that it took. -/
theorem apply_deletes {c : Command} (hc : c.Deletes positions register) (hnodup : positions.Nodup)
    (h : ∀ p ∈ positions, 1 ≤ p) :
    (s.apply c).items = others s.items positions ∧
      s.Stores (s.apply c) register (s.take positions) := by
  have hdelete : s.apply c = s.delete positions register := by
    cases hc with
    | items => rfl
    | span target => rfl
  rw [hdelete]
  exact ⟨remove_eq_others hnodup h, s.store_stores register _⟩

/-- **A copy** stores the same, and leaves the items. -/
theorem apply_copies {c : Command} (hc : c.Copies positions register) :
    (s.apply c).items = s.items ∧ s.Stores (s.apply c) register (s.take positions) := by
  have hyank : s.apply c = s.yank positions register := by
    cases hc with
    | items => rfl
    | span target => rfl
  rw [hyank]
  exact ⟨rfl, s.store_stores register _⟩

/-- **A paste** puts in one block, and changes nothing else. -/
theorem apply_paste (s : NoteStack) (register : String) (position count : Nat) :
    s.apply (.pasteItems register position count) =
      { s with
        items := s.items.take (min position s.items.length)
          ++ (List.replicate count ((s.registers.get? register).getD [])).flatten
          ++ s.items.drop (min position s.items.length) } := by
  rw [flatten_replicate_eq_repeated]
  exact congrArg (NoteStack.mk · s.registers) insertBlock_min.symm

/-- **Movements lose nothing.**  The positions are named once each and count from 1, in any order,
and some may lie beyond the top.  A deletion leaves the items at all others in their order, which is
also what comes of taking away one item after the other with every index checked; and it stores the
items at these positions, as far as there are any, in the order of the positions, in the register
and in the unnamed one.  What is left and what is stored are together the items from before.  A
copy stores the same and leaves the items.  A paste puts in the content of a register, so many times
over, as one block at an index, or at the end if there are fewer items, and that is also what comes
of putting in one item after the other. -/
theorem movements (s : NoteStack) (hnodup : positions.Nodup) (h : ∀ p ∈ positions, 1 ≤ p)
    (register : String) :
    (∃ content, Lists s.items positions content ∧
      others s.items positions ++ content ~ s.items ∧
      (∀ c : Command, c.Deletes positions register →
        (s.apply c).items = others s.items positions ∧
          s.remove? positions = .ok (s.apply c).items ∧
          s.Stores (s.apply c) register content) ∧
      ∀ c : Command, c.Copies positions register →
        (s.apply c).items = s.items ∧ s.Stores (s.apply c) register content) ∧
    ∀ position count : Nat,
      let content := (s.registers.get? register).getD []
      let index := min position s.items.length
      s.apply (.pasteItems register position count) =
          { s with
            items := s.items.take index ++ (List.replicate count content).flatten
              ++ s.items.drop index } ∧
        s.paste? register position count = .ok (s.apply (.pasteItems register position count)) := by
  refine ⟨⟨s.take positions, take_lists h, others_append_perm hnodup h, ?_, ?_⟩, ?_⟩
  · intro c hc
    obtain ⟨hitems, hstores⟩ := apply_deletes (s := s) hc hnodup h
    refine ⟨hitems, ?_, hstores⟩
    rw [remove?_eq h, remove_eq_others hnodup h, hitems]
  · intro c hc
    exact apply_copies hc
  · intro position count
    exact ⟨s.apply_paste register position count, paste?_eq register position count⟩

/-- Of four notes the top one and the second are deleted, in this order, and a ninth that is not
there. -/
theorem movements_out_of_order :
    let s := NoteStack.ofItems ["a", "b", "c", "d"]
    let positions := [4, 9, 2]
    (positions.Nodup ∧ ∀ p ∈ positions, 1 ≤ p) ∧
      others s.items positions = ["a", "c"] ∧
      ∃ content, Lists s.items positions content ∧
        (s.apply (.deleteItems positions "r")).items = others s.items positions ∧
        s.remove? positions = .ok ["a", "c"] ∧
        s.Stores (s.apply (.deleteItems positions "r")) "r" content := by
  intro s positions
  have hnodup : positions.Nodup := by decide
  have h : ∀ p ∈ positions, 1 ≤ p := by decide
  obtain ⟨⟨content, hlists, -, hdeletes, -⟩, -⟩ := s.movements hnodup h "r"
  obtain ⟨hitems, hremove, hstores⟩ := hdeletes _ .items
  have hothers : others s.items positions = ["a", "c"] := by decide
  rw [hitems, hothers] at hremove
  exact ⟨⟨hnodup, h⟩, hothers, content, hlists, hitems, hremove, hstores⟩

end NoteStack

end ModalStack
