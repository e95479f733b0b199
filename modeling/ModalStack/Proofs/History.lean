/-
# Histories

What holds at the end of a run often depends on the latest event of one kind, and on that
nothing has undone it since.  `Since P Q history` says this of a list of events: at some event
`P` held, and at every later one `Q`.  Both may look at what went before the event.

A history grows at its end, and there `Since` has a law of its own
(`since_append_singleton`).  So where a state is kept up event by event, it need only be said what
one event does to it: if that is the law of a `Since`, the state knows whether it holds
(`foldl_iff_since`).
-/
import Mathlib.Data.List.Induction

namespace ModalStack

variable {α : Type} {P Q P' Q' : List α → α → Prop} {history : List α}

/-- `P` held at some event, and `Q` has held at every event since then. -/
def Since (P Q : List α → α → Prop) (history : List α) : Prop :=
  ∃ before event after, history = before ++ event :: after ∧ P before event ∧
    ∀ mid later rest, after = mid ++ later :: rest → Q (before ++ event :: mid) later

theorem not_since_nil : ¬ Since P Q [] := by
  rintro ⟨before, event, after, h, -⟩
  exact absurd h (by simp)

/-- Where it does not matter what went before. -/
theorem since_iff_exists {P Q : α → Prop} : Since (fun _ => P) (fun _ => Q) history ↔
    ∃ before event after, history = before ++ event :: after ∧ P event ∧
      ∀ later ∈ after, Q later := by
  constructor
  · rintro ⟨before, event, after, hsplit, hP, hQ⟩
    refine ⟨before, event, after, hsplit, hP, ?_⟩
    intro later hmem
    obtain ⟨mid, rest, hafter⟩ := List.append_of_mem hmem
    exact hQ mid later rest hafter
  · rintro ⟨before, event, after, hsplit, hP, hQ⟩
    refine ⟨before, event, after, hsplit, hP, ?_⟩
    rintro mid later rest rfl
    exact hQ later (by simp)

/-- **One more event** either begins anew or leaves the earlier one standing. -/
theorem since_append_singleton {last : α} :
    Since P Q (history ++ [last]) ↔ P history last ∨ Since P Q history ∧ Q history last := by
  constructor
  · rintro ⟨before, event, after, hsplit, hP, hQ⟩
    rcases List.eq_nil_or_concat after with rfl | ⟨after', d, rfl⟩
    · obtain ⟨rfl, rfl⟩ := List.append_singleton_inj.mp hsplit
      exact .inl hP
    · rw [List.concat_eq_append] at hsplit hQ
      have hends : history ++ [last] = (before ++ event :: after') ++ [d] := by
        rw [hsplit, List.append_assoc, List.cons_append]
      obtain ⟨rfl, rfl⟩ := List.append_singleton_inj.mp hends
      refine .inr ⟨⟨before, event, after', rfl, hP, ?_⟩, hQ after' last [] rfl⟩
      intro mid later rest hmid
      exact hQ mid later (rest ++ [last]) (by rw [hmid, List.append_assoc, List.cons_append])
  · rintro (hP | ⟨⟨before, event, after, rfl, hP, hQ⟩, hlast⟩)
    · refine ⟨history, last, [], rfl, hP, ?_⟩
      intro mid later rest hmid
      exact absurd hmid (by simp)
    · refine ⟨before, event, after ++ [last], by simp, hP, ?_⟩
      intro mid later rest hmid
      rcases List.eq_nil_or_concat rest with rfl | ⟨rest', d, rfl⟩
      · obtain ⟨rfl, rfl⟩ := List.append_singleton_inj.mp hmid
        exact hlast
      · rw [List.concat_eq_append] at hmid
        have hends : after ++ [last] = (mid ++ later :: rest') ++ [d] := by
          rw [hmid, List.append_assoc, List.cons_append]
        obtain ⟨rfl, -⟩ := List.append_singleton_inj.mp hends
        exact hQ mid later rest' rfl

/-- **What a state knows of its history.** -/
theorem foldl_iff_since {σ : Type} {step : σ → α → σ} {init : σ} (R : σ → Prop) (hinit : ¬ R init)
    (hstep : ∀ history event, R (step (history.foldl step init) event) ↔
      P history event ∨ R (history.foldl step init) ∧ Q history event) (history : List α) :
    R (history.foldl step init) ↔ Since P Q history := by
  induction history using List.reverseRecOn with
  | nil => exact ⟨fun h => absurd h hinit, fun h => absurd h not_since_nil⟩
  | append_singleton history last ih =>
    rw [List.foldl_append, List.foldl_cons, List.foldl_nil, hstep, ih, since_append_singleton]

theorem Since.mono (h : Since P Q history) (hP : ∀ before event, P before event → P' before event)
    (hQ : ∀ before event, Q before event → Q' before event) : Since P' Q' history := by
  obtain ⟨before, event, after, hsplit, hP₀, hQ₀⟩ := h
  exact ⟨before, event, after, hsplit, hP before event hP₀,
    fun mid later rest hmid => hQ _ _ (hQ₀ mid later rest hmid)⟩

end ModalStack
