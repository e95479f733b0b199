/-
# Contexts, found and remembered

The context of a key is read off a tree that belongs to the host, and the answer is kept until the
focus moves.  Two things are to be said of it (`ContextHost.contexts_answered`).

On one tree the answer is that of a short table: the marker of the element, or else its kind and
the nearest marker above it (`ElementTree.Classified`).  Above it are its first sixteen ancestors,
counted with repetition, since nothing keeps parents from going round in a circle
(`ElementTree.firstMarker_eq_some`).

On a tree that changes the answer need not be the one that the tree would give now.  It is the one
that the tree gave when the element was first asked for since the focus last moved.  Which request
was the first is a matter of the history alone (`ContextHost.FirstAskedOn`), and the cache holds
just the answers to those (`ContextHost.found_run`).
-/
import Mathlib.Data.List.Basic
import ModalStack.Context
import ModalStack.Proofs.History

namespace ModalStack

namespace ElementTree

variable {ι : Type} {tree : ElementTree ι} {element : ι} {start : Option ι} {context : Context}
  {n : Nat}

/-! ## 1. The nearest marker -/

/-- Up `n` parents, unless one is missing. -/
def climb (tree : ElementTree ι) : Nat → Option ι → Option ι
  | 0, start => start
  | n + 1, start => tree.climb n (start.bind tree.parent)

/-- The marker found up `n` parents. -/
def markerUp (tree : ElementTree ι) (n : Nat) (start : Option ι) : Option Context :=
  (tree.climb n start).bind tree.marker

theorem markerUp_none (n : Nat) : tree.markerUp n none = none := by
  induction n with
  | zero => rfl
  | succ n ih => exact ih

theorem firstMarker_eq_none :
    tree.firstMarker n start = none ↔ ∀ i < n, tree.markerUp i start = none := by
  induction n generalizing start with
  | zero => simp [firstMarker]
  | succ n ih =>
    cases start with
    | none => simp [firstMarker, markerUp_none]
    | some element =>
      rw [firstMarker, Option.or_eq_none_iff, ih, Nat.forall_lt_succ_left]
      rfl

theorem firstMarker_eq_some :
    tree.firstMarker n start = some context ↔
      ∃ i < n, tree.markerUp i start = some context ∧ ∀ j < i, tree.markerUp j start = none := by
  induction n generalizing start with
  | zero => simp [firstMarker]
  | succ n ih =>
    cases start with
    | none => simp [firstMarker, markerUp_none]
    | some element =>
      rw [firstMarker, Option.or_eq_some_iff, ih, Nat.exists_lt_succ_left]
      refine or_congr (and_iff_left (by simp)).symm ?_
      simp only [Nat.forall_lt_succ_left]
      constructor
      · rintro ⟨hhere, i, hi, hfound, hbefore⟩
        exact ⟨i, hi, hfound, hhere, hbefore⟩
      · rintro ⟨i, hi, hfound, hhere, hbefore⟩
        exact ⟨hhere, i, hi, hfound, hbefore⟩

/-- The nearest marker above the element: of its first sixteen ancestors, the first that has one
decides. -/
inductive NearestMarker (tree : ElementTree ι) (element : ι) : Option Context → Prop
  | found {n : Nat} {context : Context} : 1 ≤ n → n ≤ 16 →
      tree.markerUp n (some element) = some context →
      (∀ i, 1 ≤ i → i < n → tree.markerUp i (some element) = none) →
      NearestMarker tree element (some context)
  | missing : (∀ i, 1 ≤ i → i ≤ 16 → tree.markerUp i (some element) = none) →
      NearestMarker tree element none

theorem nearestMarker_eq_iff {above : Option Context} :
    tree.nearestMarker element = above ↔ tree.NearestMarker element above := by
  constructor
  · rintro rfl
    cases hfound : tree.nearestMarker element with
    | none =>
      refine .missing fun i hone hsixteen => ?_
      obtain ⟨i, rfl⟩ := Nat.exists_eq_add_of_le' hone
      exact firstMarker_eq_none.mp hfound i hsixteen
    | some context =>
      obtain ⟨n, hn, hmarker, hbefore⟩ := firstMarker_eq_some.mp hfound
      refine .found (n := n + 1) (Nat.le_add_left 1 n) hn hmarker fun i hone hi => ?_
      obtain ⟨i, rfl⟩ := Nat.exists_eq_add_of_le' hone
      exact hbefore i (Nat.lt_of_succ_lt_succ hi)
  · intro h
    cases h with
    | missing h => exact firstMarker_eq_none.mpr fun i hi => h (i + 1) (Nat.le_add_left 1 i) hi
    | @found n context hone hsixteen hmarker hbefore =>
      obtain ⟨n, rfl⟩ := Nat.exists_eq_add_of_le' hone
      refine firstMarker_eq_some.mpr ⟨n, hsixteen, hmarker, fun i hi => ?_⟩
      exact hbefore (i + 1) (Nat.le_add_left 1 i) (Nat.succ_lt_succ hi)

end ElementTree

/-! ## 2. The context of an element -/

/-- What an element without a marker makes of the marker above it. -/
inductive ElementKind.Gives : ElementKind → Option Context → Context → Prop
  /-- A text field of a dialog, a command line or a search belongs to it. -/
  | input {context : Context} : context ∈ [.dialog, .commandLine, .search] →
      Gives .textField (some context) context
  /-- Any other is in a cell. -/
  | cell {above : Option Context} : (∀ context ∈ [.dialog, .commandLine, .search],
      above ≠ some context) → Gives .textField above .cell
  | dialog : Gives .widget (some .dialog) .dialog
  | widget {above : Option Context} : above ≠ some .dialog → Gives .widget above .widget
  | inherited {context : Context} : Gives .other (some context) context
  | stack : Gives .other none .stack

theorem ElementKind.within_eq_iff {kind : ElementKind} {above : Option Context}
    {context : Context} : kind.within above = context ↔ kind.Gives above context := by
  constructor
  · rintro rfl
    cases kind with
    | textField =>
      rcases above with _ | (_ | _ | _ | _ | _ | _)
      case some.commandLine | some.search | some.dialog => exact .input (by decide)
      all_goals exact .cell (by decide)
    | widget =>
      rcases above with _ | (_ | _ | _ | _ | _ | _)
      case some.dialog => exact .dialog
      all_goals exact .widget (by decide)
    | other =>
      cases above with
      | none => exact .stack
      | some context => exact .inherited
  · intro h
    cases h with
    | input h =>
      revert context
      decide
    | cell h =>
      rcases above with _ | (_ | _ | _ | _ | _ | _)
      case some.commandLine | some.search | some.dialog => exact absurd rfl (h _ (by decide))
      all_goals rfl
    | dialog | inherited | stack => rfl
    | widget h =>
      rcases above with _ | (_ | _ | _ | _ | _ | _)
      case some.dialog => exact absurd rfl h
      all_goals rfl

namespace ElementTree

variable {ι : Type} {tree : ElementTree ι} {element : ι} {context : Context}

/-- **The context of an element**: its own marker, or what it makes of the nearest one above. -/
inductive Classified (tree : ElementTree ι) (element : ι) : Context → Prop
  | marked {context : Context} : tree.marker element = some context →
      Classified tree element context
  | unmarked {above : Option Context} {context : Context} : tree.marker element = none →
      tree.NearestMarker element above → (tree.kind element).Gives above context →
      Classified tree element context

theorem classify_eq_iff : tree.classify element = context ↔ tree.Classified element context := by
  rw [classify]
  constructor
  · intro h
    cases hmarker : tree.marker element with
    | some own =>
      rw [hmarker] at h
      exact .marked (hmarker.trans (congrArg some h))
    | none =>
      rw [hmarker] at h
      exact .unmarked hmarker (nearestMarker_eq_iff.mp rfl) (ElementKind.within_eq_iff.mp h)
  · intro h
    cases h with
    | marked hmarker => rw [hmarker]; rfl
    | unmarked hmarker habove hgives =>
      rw [hmarker, nearestMarker_eq_iff.mpr habove]
      exact ElementKind.within_eq_iff.mpr hgives

end ElementTree

/-! ## 3. A host that asks -/

/-- What a host does that matters to contexts. -/
inductive HostStep (ι : Type) where
  /-- It asks for the context of a key that this element received, or none did. -/
  | resolve (target : Option ι)
  | focusChanged
  /-- Its tree is another one now. -/
  | treeChanged (tree : ElementTree ι)

/-- A host's tree and the contexts found in it. -/
structure ContextHost (ι : Type) where
  tree : ElementTree ι
  cache : ContextCache ι

namespace ContextHost

variable {ι : Type} {steps : List (HostStep ι)} {step : HostStep ι} {element : ι}

/-- Since the focus last moved the element was asked for. -/
def Asked (steps : List (HostStep ι)) (element : ι) : Prop :=
  Since (fun _ step => step = .resolve (some element)) (fun _ step => step ≠ .focusChanged) steps

/-- So it was, and the tree has not changed since the first time. -/
def AskedOnThisTree (steps : List (HostStep ι)) (element : ι) : Prop :=
  Since (fun before step => step = .resolve (some element) ∧ ¬ Asked before element)
    (fun _ step => step ≠ .focusChanged ∧ ∀ tree, step ≠ .treeChanged tree) steps

theorem asked_append_singleton :
    Asked (steps ++ [step]) element ↔
      step = .resolve (some element) ∨ Asked steps element ∧ step ≠ .focusChanged :=
  since_append_singleton

variable [DecidableEq ι] {host : ContextHost ι} {start tree : ElementTree ι} {context : Context}

/-- The context it gets for a key. -/
def answer (host : ContextHost ι) (target : Option ι) : Context :=
  (host.cache.resolve host.tree target).2

/-- The host after a step. -/
def after (host : ContextHost ι) : HostStep ι → ContextHost ι
  | .resolve target => { host with cache := (host.cache.resolve host.tree target).1 }
  | .focusChanged => { host with cache := host.cache.focusChanged }
  | .treeChanged tree => { host with tree := tree }

/-- A host with this tree, after steps. -/
def run (start : ElementTree ι) (steps : List (HostStep ι)) : ContextHost ι :=
  steps.foldl after ⟨start, .empty⟩

theorem run_append_singleton : run start (steps ++ [step]) = (run start steps).after step :=
  List.foldl_concat _ _ _ _

/-- When the element was first asked for since the focus last moved, this was the tree. -/
def FirstAskedOn (start : ElementTree ι) (steps : List (HostStep ι)) (element : ι)
    (tree : ElementTree ι) : Prop :=
  Since (fun before step => step = .resolve (some element) ∧ ¬ Asked before element ∧
      (run start before).tree = tree)
    (fun _ step => step ≠ .focusChanged) steps

theorem firstAskedOn_append_singleton :
    FirstAskedOn start (steps ++ [step]) element tree ↔
      (step = .resolve (some element) ∧ ¬ Asked steps element ∧ (run start steps).tree = tree) ∨
        FirstAskedOn start steps element tree ∧ step ≠ .focusChanged :=
  since_append_singleton

/-! ## 4. What is remembered -/

theorem answer_some (host : ContextHost ι) (element : ι) :
    host.answer (some element)
      = (host.cache.found.get? element).getD (host.tree.classify element) := by
  rw [answer, ContextCache.resolve]
  cases host.cache.found.get? element with
  | none => rfl
  | some context => rfl

/-- **One step** adds an answer that was not there, or leaves them as they are, or forgets them. -/
theorem found_after :
    (host.after step).cache.found.get? element = some context ↔
      (step = .resolve (some element) ∧ host.cache.found.get? element = none ∧
          host.tree.classify element = context) ∨
        host.cache.found.get? element = some context ∧ step ≠ .focusChanged := by
  cases step with
  | focusChanged => simp [after, ContextCache.focusChanged, ContextCache.empty]
  | treeChanged tree => simp [after]
  | resolve target =>
    cases target with
    | none => simp [after, ContextCache.resolve]
    | some asked =>
      rw [after, ContextCache.resolve]
      cases hasked : host.cache.found.get? asked with
      | some old =>
        by_cases h : asked = element
        · subst h
          simp [hasked]
        · simp [h]
      | none =>
        by_cases h : asked = element
        · subst h
          simp [hasked, Table.get?_insert]
        · simp [h, Table.get?_insert]

/-- The cache has an answer for the elements asked for. -/
theorem found_ne_none_iff :
    (run start steps).cache.found.get? element ≠ none ↔ Asked steps element := by
  refine foldl_iff_since
    (fun host : ContextHost ι => host.cache.found.get? element ≠ none)
    (by simp [ContextCache.empty]) ?_ steps
  intro before step
  simp only [Option.ne_none_iff_exists', found_after]
  constructor
  · rintro ⟨context, ⟨h, -, -⟩ | ⟨h, hstep⟩⟩
    · exact .inl h
    · exact .inr ⟨⟨context, h⟩, hstep⟩
  · rintro (rfl | ⟨⟨context, h⟩, hstep⟩)
    · cases hfound : (before.foldl after ⟨start, .empty⟩).cache.found.get? element with
      | none => exact ⟨_, .inl ⟨rfl, rfl, rfl⟩⟩
      | some context => exact ⟨context, .inr ⟨rfl, by simp⟩⟩
    · exact ⟨context, .inr ⟨h, hstep⟩⟩

theorem FirstAskedOn.asked (h : FirstAskedOn start steps element tree) : Asked steps element :=
  h.mono (fun _ _ hfirst => hfirst.1) (fun _ _ hkeep => hkeep)

/-- **The first answer stays.** -/
theorem found_run (h : FirstAskedOn start steps element tree) :
    (run start steps).cache.found.get? element = some (tree.classify element) := by
  induction steps using List.reverseRecOn with
  | nil => exact absurd h not_since_nil
  | append_singleton steps step ih =>
    rw [run_append_singleton, found_after]
    rcases firstAskedOn_append_singleton.mp h with ⟨hstep, hnew, rfl⟩ | ⟨hold, hstep⟩
    · exact .inl ⟨hstep, not_not.mp (mt found_ne_none_iff.mp hnew), rfl⟩
    · exact .inr ⟨ih hold, hstep⟩

/-- There is one first time. -/
theorem existsUnique_firstAskedOn (h : Asked steps element) :
    ∃! tree, FirstAskedOn start steps element tree := by
  induction steps using List.reverseRecOn with
  | nil => exact absurd h not_since_nil
  | append_singleton steps step ih =>
    by_cases hasked : Asked steps element
    · have hstep : step ≠ .focusChanged := by
        rcases asked_append_singleton.mp h with rfl | ⟨-, hstep⟩
        · simp
        · exact hstep
      refine (existsUnique_congr fun tree => ?_).mpr (ih hasked)
      rw [firstAskedOn_append_singleton]
      simp [hasked, hstep]
    · have hstep : step = .resolve (some element) := by
        rcases asked_append_singleton.mp h with hstep | ⟨hold, -⟩
        · exact hstep
        · exact absurd hold hasked
      have hnot : ∀ tree, ¬ FirstAskedOn start steps element tree := fun tree h => hasked h.asked
      simp [firstAskedOn_append_singleton, hasked, hstep, hnot]

/-- As long as the tree does not change, the first time was on the tree there is. -/
theorem AskedOnThisTree.firstAskedOn (h : AskedOnThisTree steps element) :
    FirstAskedOn start steps element (run start steps).tree := by
  induction steps using List.reverseRecOn with
  | nil => exact absurd h not_since_nil
  | append_singleton steps step ih =>
    rw [firstAskedOn_append_singleton, run_append_singleton]
    rcases since_append_singleton.mp h with ⟨rfl, hnew⟩ | ⟨hold, hfocus, htree⟩
    · exact .inl ⟨rfl, hnew, rfl⟩
    · have hsame : ((run start steps).after step).tree = (run start steps).tree := by
        cases step with
        | resolve target => rfl
        | focusChanged => rfl
        | treeChanged tree => exact absurd rfl (htree tree)
      rw [hsame]
      exact .inr ⟨ih hold, hfocus⟩

/-- **What the host is told.** -/
theorem answer_of_firstAskedOn
    (h : FirstAskedOn start (steps ++ [.resolve (some element)]) element tree) :
    (run start steps).answer (some element) = tree.classify element := by
  rw [answer_some]
  rcases firstAskedOn_append_singleton.mp h with ⟨-, hnew, rfl⟩ | ⟨hold, -⟩
  · rw [not_not.mp (mt found_ne_none_iff.mp hnew)]
    rfl
  · rw [found_run hold]
    rfl

/-! ## 5. All of it -/

/-- **Contexts are those of the first time.**  On any tree, the context of an element is its own
marker or what its kind makes of the nearest marker above it.  A host that asks for contexts, moves
the focus and changes its tree, in any order, is told for an element the context that it had when it
was first asked for since the focus last moved: there is one such time, and if the tree has not
changed since then, this is the context on the tree as it is.  A key without an element belongs to
the stack. -/
theorem contexts_answered {ι : Type} [DecidableEq ι] (start : ElementTree ι) :
    (∀ element context, start.classify element = context ↔ start.Classified element context) ∧
      ∀ steps, (run start steps).answer none = .stack ∧
        ∀ element, let asked := steps ++ [.resolve (some element)]
          (∃! tree, FirstAskedOn start asked element tree) ∧
            (∀ tree, FirstAskedOn start asked element tree →
              (run start steps).answer (some element) = tree.classify element) ∧
            (AskedOnThisTree asked element →
              (run start steps).answer (some element)
                = (run start steps).tree.classify element) := by
  refine ⟨fun element context => ElementTree.classify_eq_iff, fun steps => ⟨rfl, ?_⟩⟩
  intro element asked
  have hasked : Asked asked element := asked_append_singleton.mpr (.inl rfl)
  refine ⟨existsUnique_firstAskedOn hasked, fun tree h => answer_of_firstAskedOn h, fun h => ?_⟩
  have hfirst : FirstAskedOn start asked element (run start asked).tree := h.firstAskedOn
  rw [answer_of_firstAskedOn hfirst, run_append_singleton]
  rfl

/-- Three elements go round in a circle, all of them text fields, and one of them is a dialog.  The
mark is taken off after the first was asked for.  It is still in a dialog, as far as the host is
told; another one that had not been asked for is in a cell. -/
theorem contexts_answered_on_circle :
    let dialog : ElementTree (Fin 3) :=
      ⟨fun element => if element = 2 then some .dialog else none, fun _ => .textField,
        fun element => some (element + 1)⟩
    let plain : ElementTree (Fin 3) := { dialog with marker := fun _ => none }
    let steps : List (HostStep (Fin 3)) :=
      [.focusChanged, .resolve (some 0), .treeChanged plain]
    (FirstAskedOn dialog (steps ++ [.resolve (some 0)]) 0 dialog ∧
        AskedOnThisTree (steps ++ [.resolve (some 1)]) 1) ∧
      (run dialog steps).answer (some 0) = .dialog ∧
      (run dialog steps).answer (some 1) = .cell := by
  intro dialog plain steps
  have hfirst : FirstAskedOn dialog (steps ++ [.resolve (some 0)]) 0 dialog := by
    have hnew : (run dialog [.focusChanged]).cache.found.get? 0 = none := rfl
    refine ⟨[.focusChanged], .resolve (some 0), [.treeChanged plain, .resolve (some 0)], rfl,
      ⟨rfl, fun h => found_ne_none_iff.mpr h hnew, rfl⟩, fun mid later rest hmid => ?_⟩
    have hlater : later ∈ [HostStep.treeChanged plain, .resolve (some 0)] := by
      rw [hmid]
      simp
    rcases List.mem_pair.mp hlater with rfl | rfl
    · simp
    · simp
  have hthis : AskedOnThisTree (steps ++ [.resolve (some 1)]) 1 := by
    have hnew : (run dialog steps).cache.found.get? 1 = none := rfl
    exact since_append_singleton.mpr (.inl ⟨rfl, fun h => found_ne_none_iff.mpr h hnew⟩)
  obtain ⟨-, hanswers⟩ := contexts_answered dialog
  obtain ⟨-, hzero⟩ := hanswers steps
  refine ⟨⟨hfirst, hthis⟩, ((hzero 0).2.1 dialog hfirst).trans (by decide), ?_⟩
  exact ((hzero 1).2.2 hthis).trans (by decide)

end ContextHost

end ModalStack
