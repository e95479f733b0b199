/-
# Association lists

A list of pairs read as a finite map: the first pair with a key holds its value.  Writing
replaces a value where it stands, and a new key goes to the end, so the list keeps the order
in which its keys first came.  The look-up is `List.lookup`; the lemmas here say what each
operation does to it and to the list of keys.
-/

namespace ModalStack.Assoc

variable {κ α : Type} [DecidableEq κ]

/-- The keys, in the order of the list. -/
def keys (l : List (κ × α)) : List κ := l.map Prod.fst

/-- Writes `value` under `key`. -/
def insert (key : κ) (value : α) : List (κ × α) → List (κ × α)
  | [] => [(key, value)]
  | e :: rest => if e.1 = key then (key, value) :: rest else e :: insert key value rest

/-- Removes every pair with this key. -/
def erase (key : κ) (l : List (κ × α)) : List (κ × α) := l.filter fun e => e.1 ≠ key

/-! ## 1. Look-ups -/

theorem lookup_cons (key : κ) (e : κ × α) (l : List (κ × α)) :
    (e :: l).lookup key = if e.1 = key then some e.2 else l.lookup key := by
  obtain ⟨k, value⟩ := e
  rw [List.lookup_cons]
  by_cases h : k = key
  · simp [h]
  · have : (key == k) = false := beq_eq_false_iff_ne.mpr fun h' => h h'.symm
    simp [h, this]

theorem lookup_insert (key k : κ) (value : α) (l : List (κ × α)) :
    (insert key value l).lookup k = if key = k then some value else l.lookup k := by
  induction l with
  | nil => simp [insert, lookup_cons]
  | cons e rest ih =>
    by_cases h : e.1 = key
    · simp only [insert, h, if_true, lookup_cons]
      by_cases hk : key = k <;> simp [hk]
    · simp only [insert, h, if_false, lookup_cons, ih]
      by_cases hk : key = k
      · subst hk; simp [h]
      · simp [hk]

theorem lookup_erase (key k : κ) (l : List (κ × α)) :
    (erase key l).lookup k = if key = k then none else l.lookup k := by
  induction l with
  | nil => simp [erase]
  | cons e rest ih =>
    by_cases h : e.1 = key
    · have : erase key (e :: rest) = erase key rest := by simp [erase, h]
      rw [this, ih, lookup_cons]
      by_cases hk : key = k
      · simp [hk]
      · simp [hk, h]
    · have : erase key (e :: rest) = e :: erase key rest := by simp [erase, h]
      rw [this, lookup_cons, lookup_cons, ih]
      by_cases hk : key = k
      · subst hk; simp [h]
      · simp [hk]

theorem lookup_eq_none_iff {key : κ} {l : List (κ × α)} :
    l.lookup key = none ↔ key ∉ keys l := by
  induction l with
  | nil => simp [keys]
  | cons e rest ih =>
    rw [lookup_cons]
    by_cases h : e.1 = key
    · simp [keys, h]
    · have : key ≠ e.1 := fun h' => h h'.symm
      simp only [h, if_false, ih]
      simp [keys, this]

/-- Where no key stands twice, every pair is found. -/
theorem lookup_of_mem {e : κ × α} {l : List (κ × α)} (h : (keys l).Nodup) (he : e ∈ l) :
    l.lookup e.1 = some e.2 := by
  induction l with
  | nil => exact absurd he (by simp)
  | cons e' rest ih =>
    obtain ⟨hnew, hrest⟩ := List.nodup_cons.mp h
    rw [lookup_cons]
    rcases List.mem_cons.mp he with rfl | he'
    · rw [if_pos rfl]
    · have hkey : e.1 ∈ keys rest := List.mem_map_of_mem he'
      have hne : e'.1 ≠ e.1 := fun heq => hnew (by rw [heq]; exact hkey)
      rw [if_neg hne, ih hrest he']

theorem lookup_append (l₁ l₂ : List (κ × α)) (key : κ) :
    (l₁ ++ l₂).lookup key = (l₁.lookup key).or (l₂.lookup key) := by
  induction l₁ with
  | nil => rfl
  | cons e rest ih =>
    rw [List.cons_append, lookup_cons, lookup_cons, ih]
    by_cases h : e.1 = key <;> simp [h]

/-- Keeping the pairs whose key passes a test. -/
theorem lookup_filter (p : κ → Bool) (l : List (κ × α)) (key : κ) :
    (l.filter fun e => p e.1).lookup key = if p key then l.lookup key else none := by
  induction l with
  | nil => simp
  | cons e rest ih =>
    rw [List.filter_cons, lookup_cons]
    by_cases h : e.1 = key
    · subst h
      by_cases hp : p e.1 = true
      · simp [hp, lookup_cons]
      · rw [if_neg hp, ih, if_neg hp, if_neg hp]
    · by_cases hp : p e.1 = true
      · simp [hp, h, lookup_cons, ih]
      · rw [if_neg hp, ih, if_neg h]

/-! ## 2. Keys -/

theorem keys_insert (key : κ) (value : α) (l : List (κ × α)) :
    keys (insert key value l) = if key ∈ keys l then keys l else keys l ++ [key] := by
  induction l with
  | nil => simp [insert, keys]
  | cons e rest ih =>
    by_cases h : e.1 = key
    · simp [insert, keys, h]
    · have hne : key ≠ e.1 := fun h' => h h'.symm
      simp only [insert, h, if_false]
      simp only [keys, List.map_cons, List.mem_cons, hne, false_or] at ih ⊢
      rw [ih]
      split <;> rename_i hk <;> simp [hk]

theorem keys_erase (key : κ) (l : List (κ × α)) :
    keys (erase key l) = (keys l).filter fun k => k ≠ key := by
  induction l with
  | nil => rfl
  | cons e rest ih =>
    by_cases h : e.1 = key <;> simp_all [erase, keys]

theorem nodup_keys_insert {key : κ} {value : α} {l : List (κ × α)} (h : (keys l).Nodup) :
    (keys (insert key value l)).Nodup := by
  rw [keys_insert]
  split
  · exact h
  · rename_i hk
    rw [List.nodup_append]
    refine ⟨h, by simp, ?_⟩
    intro a ha b hb
    rw [List.mem_singleton.mp hb]
    exact fun hab => hk (hab ▸ ha)

theorem nodup_keys_erase {key : κ} {l : List (κ × α)} (h : (keys l).Nodup) :
    (keys (erase key l)).Nodup := by
  rw [keys_erase]
  exact h.filter _

end ModalStack.Assoc
