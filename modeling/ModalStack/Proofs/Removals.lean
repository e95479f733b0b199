/-
# Depth after a removal

The engine does not see the host's items: after a deletion it believes a depth that it has
computed, and the host has removed the positions that it was told.  Do the two still agree?

* A host that removes positions of its stack, each of them named once, is left with the items
  at all other positions (`NoteStack.remove_eq_others`), and has lost as many as were named
  (`NoteStack.length_remove`).
* A range is brought into bounds before anything is computed from it, and the engine subtracts
  as many as it names.  So the two agree after every range and every target.
* The engine subtracts from its depth what a deletion of items was asked for, while the
  positions stop at the top.  So the two agree unless a count without a selection reaches
  beyond the top; then the engine believes a stack that is smaller than it is, except from
  position 1, where none is left either way (`State.OnStack.deleteItems_depth_iff`).
-/
import ModalStack.Notes.Stack
import ModalStack.Proofs.Addressing

namespace ModalStack

/-! ## 1. What a host is left with -/

namespace NoteStack

/-- The items at positions other than these, if the first of them all stands at `start`. -/
def othersFrom (start : Nat) (items : List String) (positions : List Nat) : List String :=
  ((items.zipIdx start).filter fun item => item.2 ∉ positions).map Prod.fst

/-- The items of a stack at positions other than these. -/
def others (items : List String) (positions : List Nat) : List String :=
  othersFrom 1 items positions

section

variable {x : String} {items : List String} {positions : List Nat} {start p : Nat}

theorem othersFrom_cons_of_mem (h : start ∈ positions) :
    othersFrom start (x :: items) positions = othersFrom (start + 1) items positions := by
  simp [othersFrom, h]

theorem othersFrom_cons_of_not_mem (h : start ∉ positions) :
    othersFrom start (x :: items) positions = x :: othersFrom (start + 1) items positions := by
  simp [othersFrom, h]

/-- Positions below the first item take nothing away. -/
theorem othersFrom_of_lt (h : ∀ q ∈ positions, q < start) :
    othersFrom start items positions = items := by
  induction items generalizing start with
  | nil => rfl
  | cons x items ih =>
    have hstart : start ∉ positions := fun hmem => Nat.lt_irrefl _ (h start hmem)
    rw [othersFrom_cons_of_not_mem hstart, ih fun q hq => Nat.lt_succ_of_lt (h q hq)]

/-- Without the item at the highest position, the lower ones are still where they were. -/
theorem othersFrom_eraseIdx {index : Nat} (h : ∀ q ∈ positions, q < start + index) :
    othersFrom start (items.eraseIdx index) positions
      = othersFrom start items ((start + index) :: positions) := by
  induction items generalizing start index with
  | nil => rfl
  | cons x items ih =>
    cases index with
    | zero =>
      have hrest : ∀ q ∈ start :: positions, q < start + 1 := by
        intro q hq
        rcases List.mem_cons.mp hq with rfl | hq
        · exact Nat.lt_succ_self _
        · exact Nat.lt_succ_of_lt (h q hq)
      rw [List.eraseIdx_cons_zero, Nat.add_zero, othersFrom_cons_of_mem List.mem_cons_self,
        othersFrom_of_lt hrest]
      exact othersFrom_of_lt h
    | succ index =>
      have hnext : start + 1 + index = start + (index + 1) := by omega
      have ih' : othersFrom (start + 1) (items.eraseIdx index) positions
          = othersFrom (start + 1) items ((start + (index + 1)) :: positions) := by
        rw [← hnext]
        exact ih (by rwa [hnext])
      rw [List.eraseIdx_cons_succ]
      by_cases hmem : start ∈ positions
      · rw [othersFrom_cons_of_mem hmem, othersFrom_cons_of_mem (List.mem_cons_of_mem _ hmem), ih']
      · have hmem' : start ∉ (start + (index + 1)) :: positions := by
          intro hin
          rcases List.mem_cons.mp hin with heq | hin
          · omega
          · exact hmem hin
        rw [othersFrom_cons_of_not_mem hmem, othersFrom_cons_of_not_mem hmem', ih']

/-- From the highest position down, erasing one by one leaves the others. -/
theorem foldl_eraseAt_eq_others (hpw : positions.Pairwise (· > ·)) (h₁ : ∀ q ∈ positions, 1 ≤ q) :
    positions.foldl eraseAt items = others items positions := by
  induction positions generalizing items with
  | nil => exact (othersFrom_of_lt (by simp)).symm
  | cons p rest ih =>
    obtain ⟨hlower, hpw⟩ := List.pairwise_cons.mp hpw
    have hp : 1 + (p - 1) = p := by
      have : 1 ≤ p := h₁ p List.mem_cons_self
      omega
    -- what goes first stands highest, so the positions that are still to go have not moved
    rw [List.foldl_cons, ih hpw fun q hq => h₁ q (List.mem_cons_of_mem p hq)]
    simp only [others, eraseAt]
    rw [othersFrom_eraseIdx (by rwa [hp]), hp]

/-- From the highest position down, each erasure hits an item.  On an empty list there is
nothing to hit. -/
theorem length_foldl_eraseAt (hpw : positions.Pairwise (· > ·))
    (h : ∀ q ∈ positions, 1 ≤ q ∧ q ≤ max items.length 1) :
    (positions.foldl eraseAt items).length = items.length - positions.length := by
  induction positions generalizing items with
  | nil => rfl
  | cons p rest ih =>
    obtain ⟨hlower, hpw⟩ := List.pairwise_cons.mp hpw
    obtain ⟨hp₁, hp₂⟩ := h p List.mem_cons_self
    have hlen : (eraseAt items p).length = items.length - 1 := by
      rw [eraseAt, List.length_eraseIdx]
      split <;> omega
    have hrest : ∀ q ∈ rest, 1 ≤ q ∧ q ≤ max (eraseAt items p).length 1 := by
      intro q hq
      have hlt : q < p := hlower q hq
      have hle : 1 ≤ q := (h q (List.mem_cons_of_mem p hq)).1
      omega
    rw [List.foldl_cons, ih hpw hrest, hlen, List.length_cons]
    omega

end

/-- The order in which a host removes positions, if none is named twice. -/
theorem pairwise_mergeSort_reverse {positions : List Nat} (h : positions.Nodup) :
    (positions.mergeSort (· ≤ ·)).reverse.Pairwise (· > ·) := by
  have htrans : ∀ a b c : Nat, decide (a ≤ b) = true → decide (b ≤ c) = true →
      decide (a ≤ c) = true := by
    intro a b c
    simp only [decide_eq_true_eq]
    omega
  have htotal : ∀ a b : Nat, (decide (a ≤ b) || decide (b ≤ a)) = true := by
    intro a b
    simp only [Bool.or_eq_true, decide_eq_true_eq]
    omega
  have hsorted : (positions.mergeSort (· ≤ ·)).Pairwise (· ≤ ·) := by
    simpa using List.pairwise_mergeSort htrans htotal positions
  have hnodup : (positions.mergeSort (· ≤ ·)).Nodup := (List.mergeSort_perm _ _).nodup_iff.mpr h
  rw [List.pairwise_reverse]
  refine (hsorted.and hnodup).imp ?_
  rintro a b ⟨hle, hne⟩
  omega

variable {s : NoteStack} {positions : List Nat}

/-- **What is removed.**  A host that removes positions is left with the items at all others. -/
theorem remove_eq_others (hnodup : positions.Nodup) (h : ∀ q ∈ positions, 1 ≤ q) :
    s.remove positions = others s.items positions := by
  rw [remove, foldl_eraseAt_eq_others (pairwise_mergeSort_reverse hnodup) (by simpa using h)]
  simp [others, othersFrom]

/-- **How many are removed**: as many as are named. -/
theorem length_remove (hnodup : positions.Nodup)
    (h : ∀ q ∈ positions, 1 ≤ q ∧ q ≤ max s.items.length 1) :
    (s.remove positions).length = s.items.length - positions.length := by
  rw [remove, length_foldl_eraseAt (pairwise_mergeSort_reverse hnodup) (by simpa using h)]
  simp

end NoteStack

/-! ## 2. What the engine believes -/

/-- Cursor and selection lie on the stack, where an empty stack counts as one of depth 1. -/
structure State.OnStack (s : State) : Prop where
  one_le : 1 ≤ s.position
  le_depth : s.position ≤ max s.depth 1
  selection : ∀ sel, s.selection = some sel → 1 ≤ sel.low ∧ sel.high ≤ max s.depth 1
  narrow : s.depth < wordSize

/-- What a removal leaves of cursor, selection and register. -/
structure Outcome.Settles (s : State) (o : Outcome) (register : Option String) : Prop where
  position : o.state.position = max 1 (min s.position o.state.depth)
  selection : o.state.selection = none
  activeRegister : o.state.activeRegister = some (State.targetRegister register)

/-- The depth after a removal is right: it has gone down by what was named, and a host that
had as many items as the engine believed is left with the others, as many as the engine
believes now. -/
structure Outcome.Agrees (s : State) (o : Outcome) : Prop where
  depth : o.state.depth = s.depth - o.affected.length
  host : ∀ host : NoteStack, host.items.length = s.depth →
    host.remove o.affected = NoteStack.others host.items o.affected ∧
      (host.remove o.affected).length = o.state.depth

namespace State

variable {s : State}

theorem afterRemoval_settles (s : State) (removed : Nat) (register : Option String)
    (affected : List Nat) (effect : Option Effect) :
    Outcome.Settles s ⟨s.afterRemoval removed (targetRegister register), affected, effect⟩
      register where
  position := Nat.max_comm _ _
  selection := rfl
  activeRegister := rfl

/-- Where the engine subtracts what is named, and names positions of the stack, the host
agrees. -/
theorem agrees_iff {o : Outcome} (hnodup : o.affected.Nodup)
    (h : ∀ q ∈ o.affected, 1 ≤ q ∧ q ≤ max s.depth 1) :
    o.Agrees s ↔ o.state.depth = s.depth - o.affected.length := by
  constructor
  · exact fun hagrees => hagrees.depth
  · intro hdepth
    refine ⟨hdepth, ?_⟩
    intro host hhost
    rw [← hhost] at h hdepth
    exact ⟨NoteStack.remove_eq_others hnodup fun q hq => (h q hq).1,
      (NoteStack.length_remove hnodup h).trans hdepth.symm⟩

/-! ## 3. Ranges and targets -/

/-- A range names positions of the stack, none of them twice. -/
theorem rangePositions_on_stack (s : State) (start stop : Nat) :
    (s.rangePositions start stop).Nodup ∧
      ∀ q ∈ s.rangePositions start stop, 1 ≤ q ∧ q ≤ max s.depth 1 := by
  by_cases hnil : s.rangePositions start stop = []
  · simp [hnil]
  · have h : s.Addresses (s.rangePositions start stop) := Bounded.rangePositions hnil
    refine ⟨h.nodup, ?_⟩
    intro q hq
    rw [Nat.max_comm]
    exact ⟨h.one_le q hq, h.le_depth q hq⟩

/-- After the deletion of a range the engine and the host agree. -/
theorem deleteRange_agrees (s : State) (start stop : Nat) (register : Option String) :
    (s.deleteRange start stop register).Agrees s := by
  obtain ⟨hnodup, hmem⟩ := s.rangePositions_on_stack start stop
  exact (agrees_iff (o := s.deleteRange start stop register) hnodup hmem).mpr rfl

/-! ## 4. Items from the cursor, or selected -/

namespace OnStack

theorem between {low high : Nat} (h₁ : 1 ≤ low) (h₂ : high ≤ max s.depth 1) :
    (positionsBetween low high).Nodup ∧
      ∀ q ∈ positionsBetween low high, 1 ≤ q ∧ q ≤ max s.depth 1 := by
  refine ⟨nodup_positionsBetween low high, ?_⟩
  intro q hq
  obtain ⟨hlow, hhigh⟩ := mem_positionsBetween.mp hq
  exact ⟨Nat.le_trans h₁ hlow, Nat.le_trans hhigh h₂⟩

/-- What is deleted or copied are positions of the stack, none of them twice. -/
theorem affectedPositions (h : s.OnStack) (count : Nat) :
    (s.affectedPositions count).Nodup ∧
      ∀ q ∈ s.affectedPositions count, 1 ≤ q ∧ q ≤ max s.depth 1 := by
  cases hsel : s.selection with
  | some sel =>
    obtain ⟨h₁, h₂⟩ := h.selection sel hsel
    simp only [State.affectedPositions, hsel]
    exact between h₁ h₂
  | none =>
    rw [affectedPositions_unselected hsel]
    exact between h.one_le (by omega)

/-- The size of a selection fits in 64 bits. -/
theorem span_eq (h : s.OnStack) {sel : Selection} (hsel : s.selection = some sel) :
    sel.span = (positionsBetween sel.low sel.high).length := by
  obtain ⟨h₁, h₂⟩ := h.selection sel hsel
  have hle : sel.low ≤ sel.high := sel.low_le_high
  have hnarrow : s.depth < wordSize := h.narrow
  have hlt : sel.high - sel.low + 1 < wordSize := by
    have hword : 1 < wordSize := by decide
    omega
  rw [Selection.span, wrap_of_lt hlt, length_positionsBetween]
  omega

/-- **Where the depth is right.**  The depth goes down by what is named exactly if a selection
is deleted, or no more is asked for than there is, or the cursor stands at the bottom. -/
theorem deleteItems_depth_iff (h : s.OnStack) (count : Nat) (register : Option String) :
    (s.deleteItems count register).state.depth
        = s.depth - (s.deleteItems count register).affected.length ↔
      s.selection.isSome ∨ max count 1 ≤ s.depth + 1 - s.position ∨ s.position = 1 := by
  have hp₁ : 1 ≤ s.position := h.one_le
  have hp₂ : s.position ≤ max s.depth 1 := h.le_depth
  simp only [deleteItems, afterRemoval]
  cases hsel : s.selection with
  | some sel => simp [intendedSize, State.affectedPositions, hsel, h.span_eq hsel]
  | none =>
    rw [affectedPositions_unselected hsel, length_positionsBetween]
    simp only [intendedSize, hsel, Option.isSome_none, Bool.false_eq_true, false_or]
    omega

/-- **The depth after a removal.**  Whatever is deleted from a state whose cursor and selection
lie on the stack, and to whatever register: the selection is gone, the register is the active
one, and the cursor stays unless it stood above what is left.  After a range or a target the
depth has gone down by what is named, as at a host that removes exactly that.  After items from
the cursor it has gone down by as many as were asked for, which is as many as are named
exactly where the host does not run out of items first. -/
theorem removals (h : s.OnStack) :
    (∀ start stop register,
      (s.deleteRange start stop register).Settles s register ∧
        (s.deleteRange start stop register).Agrees s) ∧
    (∀ target register,
      (s.deleteToPosition target register).Settles s register ∧
        (s.deleteToPosition target register).Agrees s) ∧
    ∀ count register,
      (s.deleteItems count register).Settles s register ∧
        (s.selection = none →
          (s.deleteItems count register).state.depth = s.depth - max count 1) ∧
        ((s.deleteItems count register).Agrees s ↔
          s.selection.isSome ∨ max count 1 ≤ s.depth + 1 - s.position ∨ s.position = 1) := by
  refine ⟨?_, ?_, ?_⟩
  · intro start stop register
    exact ⟨s.afterRemoval_settles _ register _ _, s.deleteRange_agrees start stop register⟩
  · intro target register
    exact ⟨s.afterRemoval_settles _ register _ _, s.deleteRange_agrees s.position target register⟩
  · intro count register
    refine ⟨s.afterRemoval_settles _ register _ _, ?_, ?_⟩
    · intro hsel
      simp only [deleteItems, afterRemoval, intendedSize, hsel]
    · obtain ⟨hnodup, hmem⟩ := h.affectedPositions count
      rw [agrees_iff (o := s.deleteItems count register) hnodup hmem]
      exact h.deleteItems_depth_iff count register

/-- Three items of five are selected, and deleted with a count that does not matter. -/
theorem removals_of_selection :
    let s : State := { position := 2, depth := 5, selection := some ⟨4, 2⟩ }
    s.OnStack ∧ (s.deleteItems maxCount (some "a")).affected = [2, 3, 4] ∧
      (s.deleteItems maxCount (some "a")).Settles s (some "a") ∧
      (s.deleteItems maxCount (some "a")).Agrees s := by
  intro s
  have h : s.OnStack := by
    refine ⟨by decide, by decide, ?_, by decide⟩
    intro sel hsel
    obtain rfl := Option.some.inj hsel
    decide
  have hdelete := (removals h).2.2 maxCount (some "a")
  exact ⟨h, by decide, hdelete.1, hdelete.2.2.mpr (.inl rfl)⟩

/-- From position 8 of ten items five are to be deleted.  Three are named, and the engine
believes that five are left. -/
theorem removal_past_top :
    let s : State := { position := 8, depth := 10 }
    s.OnStack ∧ (s.deleteItems 5 none).affected = [8, 9, 10] ∧
      (s.deleteItems 5 none).state.depth = 5 ∧ ¬ (s.deleteItems 5 none).Agrees s := by
  intro s
  refine ⟨⟨by decide, by decide, by simp [s], by decide⟩, by decide, rfl, ?_⟩
  intro hagrees
  exact absurd hagrees.depth (by decide)

end OnStack

end State

end ModalStack
