/-
# The indices of a stack of notes

A stack that has as many notes as the engine believes can carry out every command that fits
the engine's state, and no index faults on the way (`NoteStack.applyCommand?_eq`).  The checked
operations and the plain ones then agree: where all indices are good, taking, erasing and
inserting item by item comes to the same as cutting the list.

How many notes there are changes only with a command that is known to resize the stack
(`NoteStack.length_apply`).
-/
import ModalStack.Action.Checked
import ModalStack.Notes.Checked
import ModalStack.Proofs.Addressing

namespace ModalStack

/-! ## 1. Folds that do not fault -/

/-- **A fold without faults.**  If every step succeeds where the invariant holds and keeps it,
the whole fold succeeds, with the result of the plain one. -/
theorem foldlM_eq_ok {σ α ε : Type} {P : σ → Prop} {f? : σ → α → Except ε σ} {f : σ → α → σ}
    {xs : List α} (hstep : ∀ x ∈ xs, ∀ s, P s → f? s x = .ok (f s x) ∧ P (f s x)) {s : σ}
    (hs : P s) : xs.foldlM f? s = .ok (xs.foldl f s) ∧ P (xs.foldl f s) := by
  induction xs generalizing s with
  | nil => exact ⟨rfl, hs⟩
  | cons x rest ih =>
    obtain ⟨hx, hnext⟩ := hstep x List.mem_cons_self s hs
    rw [List.foldlM_cons, hx]
    exact ih (fun y hy => hstep y (List.mem_cons_of_mem x hy)) hnext

theorem mapM_eq_ok {α β ε : Type} {f? : α → Except ε β} {f : α → β} {xs : List α}
    (h : ∀ x ∈ xs, f? x = .ok (f x)) : xs.mapM f? = .ok (xs.map f) := by
  induction xs with
  | nil => rfl
  | cons x rest ih =>
    rw [List.mapM_cons, h x List.mem_cons_self, ih fun y hy => h y (List.mem_cons_of_mem x hy)]
    rfl

namespace NoteStack

/-! ## 2. Good indices -/

section

variable {items : List String} {index position length : Nat}

theorem index?_eq (h : 1 ≤ position) : index? position = .ok (position - 1) :=
  if_neg (by omega)

theorem inside?_eq (h : index < length) : inside? index length = .ok () := if_pos h

theorem look?_eq (h : index < max 1 items.length) : look? items index = .ok items[index]? := by
  unfold look?
  split
  · rename_i hempty
    rw [List.isEmpty_iff.mp hempty]
    rfl
  · rename_i hne
    have hpos : items.length ≠ 0 := by simpa using hne
    rw [inside?_eq (by omega)]
    rfl

theorem openIndex?_eq (h : 1 ≤ position) (above : Bool) :
    openIndex? position above = .ok (openIndex position above) := by
  unfold openIndex? openIndex
  split
  · rfl
  · exact index?_eq h

end

/-! ## 3. Taking, erasing, emptying -/

section

variable {s : NoteStack} {items : List String} {positions : List Nat}

theorem take?_eq (h : ∀ p ∈ positions, 1 ≤ p ∧ p ≤ max 1 s.items.length) :
    s.take? positions = .ok (s.take positions) := by
  have hfound : ∀ p ∈ positions,
      (do let index ← index? p; look? s.items index) = Except.ok s.items[p - 1]? := by
    intro p hp
    obtain ⟨h₁, h₂⟩ := h p hp
    rw [index?_eq h₁, ok_bind]
    exact look?_eq (by omega)
  unfold take? take
  rw [mapM_eq_ok hfound, ok_bind, List.filterMap_map]
  rfl

theorem eraseAt?_eq {position : Nat} (h : 1 ≤ position) :
    eraseAt? items position = .ok (eraseAt items position) := by
  unfold eraseAt? eraseAt
  split
  · rename_i hle
    rw [index?_eq h, ok_bind, inside?_eq (by omega)]
    rfl
  · rename_i hlt
    rw [List.eraseIdx_of_length_le (by omega)]
    rfl

theorem remove?_eq (h : ∀ p ∈ positions, 1 ≤ p) :
    s.remove? positions = .ok (s.remove positions) := by
  have hstep : ∀ p ∈ (positions.mergeSort (· ≤ ·)).reverse, ∀ items : List String, True →
      eraseAt? items p = .ok (eraseAt items p) ∧ True := by
    intro p hp items _
    have hmem : p ∈ positions := by simpa using hp
    exact ⟨eraseAt?_eq (h p hmem), trivial⟩
  exact (foldlM_eq_ok hstep trivial).1

theorem clear?_eq (h : ∀ p ∈ positions, 1 ≤ p ∧ p ≤ max 1 items.length) :
    clear? items positions =
      .ok (positions.foldl (fun items p => items.set (p - 1) "") items) := by
  -- setting an item keeps the length, so later indices stay good
  refine (foldlM_eq_ok (P := fun l => l.length = items.length) ?_ rfl).1
  intro p hp l hl
  obtain ⟨h₁, h₂⟩ := h p hp
  refine ⟨?_, by rw [List.length_set, hl]⟩
  rw [index?_eq h₁, ok_bind, look?_eq (by omega)]
  rfl

end

/-! ## 4. Inserting -/

section

variable {items block : List String} {index : Nat}

theorem insertIdx_eq {α : Type} {a : α} : ∀ {l : List α} {i : Nat}, i ≤ l.length →
    l.insertIdx i a = l.take i ++ a :: l.drop i
  | _, 0, _ => rfl
  | [], i + 1, h => absurd h (by simp)
  | x :: rest, i + 1, h => by
    have ih : rest.insertIdx i a = rest.take i ++ a :: rest.drop i :=
      insertIdx_eq (Nat.le_of_succ_le_succ h)
    rw [List.insertIdx_succ_cons, ih]
    rfl

/-- Item by item, a block comes in as a whole. -/
theorem insertBlock?_eq (h : index ≤ items.length) :
    insertBlock? items index block = .ok (insertBlock items index block) := by
  induction block generalizing items index with
  | nil => simp [insertBlock?, insertBlock]
  | cons item rest ih =>
    have hnext : items.insertIdx index item = items.take index ++ item :: items.drop index :=
      insertIdx_eq h
    have hlen : (items.take index).length = index := List.length_take_of_le h
    unfold insertBlock? insertAt?
    rw [if_pos h, ok_bind, ih (by rw [List.length_insertIdx_of_le_length h]; omega), hnext]
    -- the new item belongs to the part below the next one
    have hsplit : items.take index ++ item :: items.drop index
        = (items.take index ++ [item]) ++ items.drop index := by simp
    have hlen' : (items.take index ++ [item]).length = index + 1 := by simp [hlen]
    simp only [insertBlock, hsplit, List.take_left' hlen', List.drop_left' hlen']
    simp

/-- A block that comes in at one place several times stands there repeated. -/
theorem insertTimes?_eq (h : index ≤ items.length) (count : Nat) :
    insertTimes? items index block count
      = .ok (insertBlock items index (List.replicate count block).flatten) := by
  induction count generalizing items with
  | zero => simp [insertTimes?, insertBlock]
  | succ count ih =>
    have hlen : (items.take index).length = index := List.length_take_of_le h
    unfold insertTimes?
    rw [insertBlock?_eq h, ok_bind, ih (by simp only [insertBlock, List.length_append]; omega)]
    simp only [insertBlock, List.append_assoc, List.take_left' hlen, List.drop_left' hlen,
      List.replicate_succ', List.flatten_append]
    simp

theorem flatten_replicate_eq_repeated (count : Nat) :
    (List.replicate count block).flatten = repeated block count := by
  unfold repeated
  split
  · rename_i hempty
    rw [List.isEmpty_iff.mp hempty]
    simp
  · rfl

/-- Beyond the end is at the end. -/
theorem insertBlock_min : insertBlock items (min index items.length) block
    = insertBlock items index block := by
  unfold insertBlock
  by_cases h : index ≤ items.length
  · rw [Nat.min_eq_left h]
  · have hlen : items.length ≤ index := by omega
    rw [Nat.min_eq_right hlen, List.take_of_length_le hlen, List.drop_of_length_le hlen,
      List.take_length, List.drop_length]

end

/-! ## 5. Commands -/

section

variable {s : NoteStack} {state : State} {mode : Mode} {c : Command}

/-- Positions that address the state are good on as many notes. -/
theorem good_positions {positions : List Nat} (h : state.Addresses positions)
    (hlen : s.items.length = state.depth) :
    ∀ p ∈ positions, 1 ≤ p ∧ p ≤ max 1 s.items.length := by
  intro p hp
  rw [hlen]
  exact ⟨h.one_le p hp, h.le_depth p hp⟩

theorem delete?_eq {positions : List Nat} (h : state.Addresses positions)
    (hlen : s.items.length = state.depth) (register : String) :
    s.delete? positions register = .ok (s.delete positions register) := by
  unfold delete?
  rw [take?_eq (good_positions h hlen), ok_bind, remove?_eq h.one_le]
  rfl

theorem yank?_eq {positions : List Nat} (h : state.Addresses positions)
    (hlen : s.items.length = state.depth) (register : String) :
    s.yank? positions register = .ok (s.yank positions register) := by
  unfold yank?
  rw [take?_eq (good_positions h hlen)]
  rfl

theorem paste?_eq (register : String) (position count : Nat) :
    s.paste? register position count = .ok (s.paste register position count) := by
  unfold paste?
  rw [insertTimes?_eq (Nat.min_le_right _ _), insertBlock_min, flatten_replicate_eq_repeated]
  rfl

theorem open?_eq {position : Nat} (h : 1 ≤ position) (above : Bool) :
    s.open? position above =
      .ok { s with items := insertBlock s.items (openIndex position above) [""] } := by
  have hinsert : insertAt? s.items (min (openIndex position above) s.items.length) ""
      = .ok (insertBlock s.items (openIndex position above) [""]) := by
    have hle : min (openIndex position above) s.items.length ≤ s.items.length :=
      Nat.min_le_right _ _
    unfold insertAt?
    rw [if_pos hle, insertIdx_eq hle, ← insertBlock_min]
    simp [insertBlock]
  unfold open?
  rw [openIndex?_eq h, ok_bind, hinsert]
  rfl

theorem swapAt?_eq {items : List String} {a b : Nat} (ha : 1 ≤ a ∧ a ≤ items.length)
    (hb : 1 ≤ b ∧ b ≤ items.length) : swapAt? items a b = .ok (swapAt items a b) := by
  have hi : inside? (a - 1) items.length = .ok () := inside?_eq (by omega)
  have hj : inside? (b - 1) items.length = .ok () := inside?_eq (by omega)
  unfold swapAt?
  rw [index?_eq ha.1, ok_bind, index?_eq hb.1, ok_bind, hi, ok_bind, hj]
  rfl

theorem rotateBetween?_eq {items : List String} {low high : Nat} (h₁ : 1 ≤ low) (h₂ : low < high)
    (h₃ : high ≤ items.length) :
    rotateBetween? items low high = .ok (rotateBetween items low high) := by
  have hstart : inside? (low - 1) high = .ok () := inside?_eq (by omega)
  have hend : inside? (high - 1) items.length = .ok () := inside?_eq (by omega)
  unfold rotateBetween?
  rw [index?_eq h₁, ok_bind, hstart, ok_bind, hend]
  rfl

/-- **A command that fits does not fault.**  On as many notes as the engine believes there
are, the checked command does what the plain one does. -/
theorem applyCommand?_eq (h : c.Fits state mode) (hlen : s.items.length = state.depth) :
    s.applyCommand? c = .ok (s.apply c) := by
  cases c with
  | deleteItems positions register => exact delete?_eq h hlen register
  | deleteToPosition positions target register => exact delete?_eq h hlen register
  | yankItems positions register => exact yank?_eq h hlen register
  | yankToPosition positions target register => exact yank?_eq h hlen register
  | pasteItems register position count => exact paste?_eq register position count
  | swapItems positions =>
    obtain ⟨a, b, rfl, -, ha, hb⟩ := h
    rw [← hlen] at ha hb
    simp only [applyCommand?, apply]
    rw [swapAt?_eq ha hb]
    rfl
  | rotateItems positions =>
    obtain ⟨low, high, rfl, h₁, h₂, h₃⟩ := h
    have hle : low ≤ high := Nat.le_of_lt h₂
    rw [← hlen] at h₃
    simp only [applyCommand?, apply, head?_positionsBetween hle, getLast?_positionsBetween hle]
    rw [rotateBetween?_eq h₁ h₂ h₃]
    rfl
  | openItem position above => exact open?_eq h.1 above
  | changeItems positions register =>
    simp only [applyCommand?, apply]
    rw [clear?_eq (good_positions h.1 hlen)]
    rfl
  | _ => rfl

/-- Without the promise an index may fault: a swap needs two notes. -/
example : (NoteStack.ofItems ["a"]).applyCommand? (.swapItems [1, 2]) = .error (.outside 1 1) := rfl

/-! ## 6. How many notes there are -/

theorem length_swapAt (items : List String) (a b : Nat) :
    (swapAt items a b).length = items.length := by
  unfold swapAt
  split
  · simp
  · rfl

theorem length_rotateBetween {items : List String} {low high : Nat} (h₁ : low - 1 ≤ high)
    (h₂ : high ≤ items.length) : (rotateBetween items low high).length = items.length := by
  simp only [rotateBetween, lastToFront, List.length_append, List.length_take, List.length_drop]
  omega

theorem length_clear (items : List String) (positions : List Nat) :
    (positions.foldl (fun items p => items.set (p - 1) "") items).length = items.length := by
  induction positions generalizing items with
  | nil => rfl
  | cons p rest ih => rw [List.foldl_cons, ih, List.length_set]

/-- **The number of notes stays**, but for the commands that resize the stack. -/
theorem length_apply (h : c.Fits state mode) (hlen : s.items.length = state.depth)
    (hr : resizes c = false) : (s.apply c).items.length = s.items.length := by
  cases c with
  | deleteItems _ _ | deleteToPosition _ _ _ | pasteItems _ _ _ | openItem _ _ =>
    exact absurd hr (by simp [resizes])
  | swapItems positions =>
    obtain ⟨a, b, rfl, -⟩ := h
    exact length_swapAt s.items a b
  | rotateItems positions =>
    obtain ⟨low, high, rfl, h₁, h₂, h₃⟩ := h
    have hle : low ≤ high := Nat.le_of_lt h₂
    rw [← hlen] at h₃
    simp only [apply, head?_positionsBetween hle, getLast?_positionsBetween hle]
    exact length_rotateBetween (by omega) h₃
  | changeItems positions register => exact length_clear s.items positions
  | _ => rfl

end

end NoteStack

end ModalStack
