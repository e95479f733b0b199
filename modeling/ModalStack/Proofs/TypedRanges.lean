/-
# Ranges typed before an operator

Two numbers with a comma between them are a range, and a range is complete with one operator,
also where the keymap waits for that operator to be typed twice.  Deleting and copying look at
the range: it is brought into the bounds of the stack, in either order, and the host is asked
for exactly the positions in it (`Engine.Waits.run_range_items`).

Changing does not look.  It takes as many items from the cursor as a count says, and a range is
no count, so what it replaces is the item under the cursor, or the run that a count set by the
host asks for.  The range is honoured only where it is that run
(`Engine.Waits.ranges_honoured_iff`).
-/
import ModalStack.Proofs.TypedNumbers

namespace ModalStack

open Numeral

/-! ## 1. What a range amounts to -/

namespace Keymap

variable {m inner : Keymap} {ds ds' : List Char} {n k : Nat} {op : Char} {a : Action}

/-- The second end of a range is awaited behind the comma. -/
theorem awaits_range (h : IsNumeral ds n) (hds' : ds'.all Char.isDigit = true) :
    m.Awaits (ds ++ ',' :: ds') := by
  have hname := head_ne_of_numeral h (c := '@') (by decide) [',']
  have hquote := head_ne_of_numeral h (c := '"') (by decide) [',']
  have hdecimal : ds.all Text.isDecimal = true := all_isDecimal h.digits
  have hnone : ∀ phrase, Phrase.Spells (ds ++ [',']) phrase → m.actionFor? phrase = none := by
    intro phrase hspells
    rcases hspells.ends_in_operator hname with halpha | hop
    · exact absurd halpha (by decide)
    · exact absurd hop (by decide)
  have hcomma : m.resolveText (ds ++ [',']) = .pending :=
    resolveText_of_beginning hquote hnone (.range h.ne_nil hdecimal (by simp))
  have hmore : m.Awaits ((ds ++ [',']) ++ ds') := by
    refine ((awaits_numeral h).append_char hcomma).append_digits hds' ?_ ?_
    · intro c hc
      refine ⟨?_, ?_⟩
      · rintro rfl
        exact hname hc
      · rintro rfl
        exact hquote hc
    · intro more _ hmore
      rw [List.append_assoc, List.singleton_append]
      exact .range h.ne_nil hdecimal (all_isDecimal hmore)
  rwa [List.append_assoc, List.singleton_append] at hmore

/-- **A range and an operator**: the action that waits behind the operator, without a count. -/
theorem resolveText_range (h : IsNumeral ds n) (hn : n ≤ maxPosition) (h' : IsNumeral ds' k)
    (hk : k ≤ maxPosition) (hop : op.isAlpha = true)
    (hb : m.get? (String.singleton op) = some (.submap inner))
    (ha : inner.action? (String.singleton op) = some a) :
    m.resolveText (ds ++ ',' :: (ds' ++ [op])) = .resolved ⟨a,
      String.ofList (ds ++ ',' :: (ds' ++ [op])), String.ofList (ds ++ ',' :: (ds' ++ [op])),
      some ⟨String.singleton op, .range n k⟩, none, none⟩ := by
  have hspells : Phrase.Spells (ds ++ ',' :: (ds' ++ [op]))
      ⟨String.singleton op, .range n k⟩ :=
    .range h hn h' hk hop
  have haction : m.actionFor? ⟨String.singleton op, .range n k⟩ = some a := by
    simp only [actionFor?, hb, Operand.isRange, if_true, ha]
  have hcount : phraseCount (String.ofList (ds ++ ',' :: (ds' ++ [op])))
      ⟨String.singleton op, .range n k⟩ = none := by
    simp [phraseCount, Operand.numeric]
  rw [resolveText_of_phrase (head_ne_of_numeral h (by decide) _) hspells haction, hcount]

end Keymap

/-! ## 2. What the operators do with a range -/

namespace Action

/-- Changing looks at no operand. -/
theorem change_command {i : Invocation} (hne : i.state.affectedPositions i.times ≠ []) :
    (change i).command = some (.changeItems (i.state.affectedPositions i.times)
      (State.targetRegister i.register)) := by
  unfold change
  exact finish_of_ne hne

end Action

/-! ## 3. Typing ranges -/

namespace Engine.Waits

variable {η : Type} {setup : Setup} {e : Engine η} {ds ds' : List Char} {n k : Nat} {op : Char}
  {a : Action} {inner : Keymap} {command : List Nat → String → Command}

/-- **A range and an operator are typed**: the action behind the operator runs. -/
theorem run_range (h : e.Waits setup) (hds : IsNumeral ds n) (hn : n ≤ maxPosition)
    (hds' : IsNumeral ds' k) (hk : k ≤ maxPosition) (hop : op.isAlpha = true)
    (hb : Keymap.defaultNormal.get? (String.singleton op) = some (.submap inner))
    (ha : inner.action? (String.singleton op) = some a) :
    e.requests (ds ++ ',' :: (ds' ++ [op])) = (a.run
      { state := e.state.holding (ds ++ ',' :: ds')
        count := e.state.pendingCount
        register := none
        operand := some (.range n k)
        settings := e.settings }).command.toList := by
  have hplain : ∀ c ∈ ds ++ ',' :: ds', IsPlain c := by
    intro c hc
    rcases List.mem_append.mp hc with hc | hc
    · exact isPlain_numeral hds c hc
    · rcases List.mem_cons.mp hc with rfl | hc
      · exact .inr rfl
      · exact isPlain_numeral hds' c hc
  have hresolve := Keymap.resolveText_range hds hn hds' hk hop hb ha
  have hsplit : ds ++ ',' :: (ds' ++ [op]) = (ds ++ ',' :: ds') ++ [op] := by simp
  rw [hsplit] at hresolve ⊢
  obtain ⟨-, hrequests⟩ := h.run_completes hplain (isPlain_of_isAlpha hop)
    (Keymap.awaits_range hds hds'.digits) hresolve
  exact hrequests

/-- The positions of a range that is typed. -/
theorem rangePositions_holding (hd : 1 ≤ e.state.depth) (cs : List Char) (start stop : Nat) :
    (e.state.holding cs).rangePositions start stop
        = positionsBetween (min (clamp start e.state.depth) (clamp stop e.state.depth))
          (max (clamp start e.state.depth) (clamp stop e.state.depth)) ∧
      (e.state.holding cs).rangePositions start stop ≠ [] := by
  have heq := State.rangePositions_eq (s := e.state.holding cs) hd start stop
  refine ⟨heq, ?_⟩
  rw [heq]
  exact positionsBetween_ne_nil (by omega)

/-- **A range and an operator on items are typed**: the operator takes what is in the range. -/
theorem run_range_items (h : e.Waits setup) (ho : Action.Operates a.run command)
    (hd : 1 ≤ e.state.depth) (hds : IsNumeral ds n) (hn : n ≤ maxPosition)
    (hds' : IsNumeral ds' k) (hk : k ≤ maxPosition) (hop : op.isAlpha = true)
    (hb : Keymap.defaultNormal.get? (String.singleton op) = some (.submap inner))
    (ha : inner.action? (String.singleton op) = some a) :
    e.requests (ds ++ ',' :: (ds' ++ [op])) = [command
      (positionsBetween (min (clamp n e.state.depth) (clamp k e.state.depth))
        (max (clamp n e.state.depth) (clamp k e.state.depth))) unnamedRegister] := by
  obtain ⟨heq, hne⟩ := rangePositions_holding hd (ds ++ ',' :: ds') n k
  rw [h.run_range hds hn hds' hk hop hb ha, ho.ranged _ n k rfl hne, heq]
  rfl

/-- **Ranges are honoured by deleting and copying, and by changing only by chance.**  An engine
waits for a command on a stack with items, and two numbers of 64 bits are typed with a comma
between them.  Followed by `d` or `x` they ask for the deletion, and followed by `y` for the
copy, of exactly the positions between them, both brought into the bounds of the stack, in
either order.  Followed by `c` they ask for the same to be replaced exactly if that is what
changing takes anyway: the run from the cursor that the count set before asks for, or the item
under the cursor. -/
theorem ranges_honoured_iff (h : e.Waits setup) (hd : 1 ≤ e.state.depth) (hds : IsNumeral ds n)
    (hn : n ≤ maxPosition) (hds' : IsNumeral ds' k) (hk : k ≤ maxPosition) :
    let low := min (clamp n e.state.depth) (clamp k e.state.depth)
    let high := max (clamp n e.state.depth) (clamp k e.state.depth)
    e.requests (ds ++ ',' :: (ds' ++ ['d']))
        = [.deleteItems (positionsBetween low high) unnamedRegister] ∧
      e.requests (ds ++ ',' :: (ds' ++ ['x']))
        = [.deleteItems (positionsBetween low high) unnamedRegister] ∧
      e.requests (ds ++ ',' :: (ds' ++ ['y']))
        = [.yankItems (positionsBetween low high) unnamedRegister] ∧
      (e.requests (ds ++ ',' :: (ds' ++ ['c']))
          = [.changeItems (positionsBetween low high) unnamedRegister] ↔
        low = e.state.position ∧
          high = min (e.state.position + max (e.state.pendingCount.getD 1) 1 - 1)
            e.state.depth) := by
  intro low high
  refine ⟨?_, ?_, ?_, ?_⟩
  · exact h.run_range_items (a := ⟨"delete", Action.delete⟩) Action.delete_operates
      hd hds hn hds' hk (by decide) rfl rfl
  · exact h.run_range_items (a := ⟨"delete", Action.delete⟩) Action.delete_operates
      hd hds hn hds' hk (by decide) rfl rfl
  · exact h.run_range_items (a := ⟨"yank", Action.yank⟩) Action.yank_operates
      hd hds hn hds' hk (by decide) rfl rfl
  · -- the range takes no part in what is changed, so the two have to be compared
    obtain ⟨hrun, hne⟩ := h.affectedPositions_holding hd (e.state.pendingCount.getD 1)
      (ds ++ ',' :: ds')
    rw [h.run_range (a := ⟨"change", Action.change⟩) hds hn hds' hk (by decide) rfl rfl,
      Action.change_command hne, Invocation.times, hrun]
    have hends : low ≤ high := by omega
    simp only [Option.toList_some, List.cons.injEq, Command.changeItems.injEq, and_true]
    rw [eq_comm, positionsBetween_inj hends]
    exact and_iff_left rfl

/-- A range that is too long on both sides and in reverse is the whole stack; and in front of
`c` it is honoured where the count that the host set asks for the whole stack, too. -/
theorem ranges_honoured_in_reverse :
    let e : Engine Unit := (Setup.start { depth := 4 }).run [.setPendingCount (some 7)]
    let ds : List Char := ['9', '9']
    let ds' : List Char := ['0']
    (e.Waits { depth := 4 } ∧ 1 ≤ e.state.depth ∧ IsNumeral ds 99 ∧ IsNumeral ds' 0) ∧
      e.requests (ds ++ ',' :: (ds' ++ ['d'])) = [.deleteItems [1, 2, 3, 4] unnamedRegister] ∧
      e.requests (ds ++ ',' :: (ds' ++ ['x'])) = [.deleteItems [1, 2, 3, 4] unnamedRegister] ∧
      e.requests (ds ++ ',' :: (ds' ++ ['y'])) = [.yankItems [1, 2, 3, 4] unnamedRegister] ∧
      e.requests (ds ++ ',' :: (ds' ++ ['c'])) = [.changeItems [1, 2, 3, 4] unnamedRegister] := by
  intro e ds ds'
  have h : e.Waits { depth := 4 } := ⟨rfl, Reachable.start.run _, rfl, rfl⟩
  have hd : 1 ≤ e.state.depth := by decide
  have hds : IsNumeral ds 99 := ⟨by decide, by decide, by decide⟩
  have hds' : IsNumeral ds' 0 := ⟨by decide, by decide, by decide⟩
  obtain ⟨hdelete, hdrop, hyank, hchange⟩ :=
    ranges_honoured_iff h hd hds (by decide) hds' (by decide)
  exact ⟨⟨h, hd, hds, hds'⟩, hdelete, hdrop, hyank, hchange.mpr (by decide)⟩

/-- The range is passed over: three items are named, and the one under the cursor is changed. -/
theorem change_range_passed_over :
    let e : Engine Unit := Setup.start { depth := 5 }
    (e.Waits { depth := 5 } ∧ e.state.position = 1 ∧ IsNumeral ['2'] 2 ∧ IsNumeral ['4'] 4) ∧
      e.requests ['2', ',', '4', 'c'] = [.changeItems [1] unnamedRegister] ∧
      e.requests ['2', ',', '4', 'c']
        ≠ [.changeItems (positionsBetween (min (clamp 2 e.state.depth) (clamp 4 e.state.depth))
            (max (clamp 2 e.state.depth) (clamp 4 e.state.depth))) unnamedRegister] := by
  intro e
  exact ⟨⟨⟨rfl, .start, rfl, rfl⟩, rfl, ⟨by decide, by decide, by decide⟩, by decide, by decide,
    by decide⟩, by decide +kernel⟩

end Engine.Waits

end ModalStack
