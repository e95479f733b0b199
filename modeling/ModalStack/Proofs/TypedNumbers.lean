/-
# Numbers typed before a key

A number that is typed has any number of digits, a count has 32 bits, and a position 64.  How
far a motion goes and how much an operator takes is brought into the bounds of the stack, so a
number that is larger than the stack should do as well as any other.  It does, as long as it can
be read:

* before `j`, `k` and the doubled operators, numbers above `maxCount` are no counts, by either of
  the two ways in which they are looked at: as the position of a phrase, and as the digits
  before a walk.  What is left is the count of a command without one, `countTaken`.
* before `g`, numbers above `maxPosition` are no positions, and `g` alone goes to position 1.
* behind `d`, such a number cannot be walked past either, and the whole command is dropped.

So the laws of saturation hold up to these limits and, beyond them, where the count makes no
difference (`Engine.Waits.counts_saturate_iff`, `Engine.Waits.targets_saturate_iff`).
-/
import ModalStack.Proofs.CountedKeys
import ModalStack.Proofs.Following

namespace ModalStack

open Numeral

/-! ## 1. What a number is taken for -/

/-- The count that a typed number gives to a command. -/
def readCount (n : Nat) : Option Nat := if n ≤ maxCount then some n else none

/-- How often a command with a typed number runs: a number that is no count is left out. -/
def countTaken (n : Nat) : Nat := (readCount n).getD 1

/-- Where `g` goes with a typed number: a number that is no position is left out. -/
def targetTaken (n : Nat) : Nat := if n ≤ maxPosition then n else 1

theorem countTaken_of_le {n : Nat} (h : n ≤ maxCount) : countTaken n = n := by
  simp [countTaken, readCount, h]

theorem countTaken_of_lt {n : Nat} (h : maxCount < n) : countTaken n = 1 := by
  simp [countTaken, readCount, Nat.not_le.mpr h]

/-- Either a number is a count, or one is taken for it. -/
theorem countTaken_cases (n : Nat) :
    n ≤ maxCount ∧ countTaken n = n ∨ maxCount < n ∧ countTaken n = 1 := by
  rcases Nat.lt_or_ge maxCount n with hlt | hle
  · exact .inr ⟨hlt, countTaken_of_lt hlt⟩
  · exact .inl ⟨hle, countTaken_of_le hle⟩

theorem one_le_countTaken {n : Nat} (h : 1 ≤ n) : 1 ≤ countTaken n := by
  rcases countTaken_cases n with ⟨-, htaken⟩ | ⟨-, htaken⟩
  · rw [htaken]
    exact h
  · exact Nat.le_of_eq htaken.symm

section

variable {ds : List Char} {n : Nat} {op : Char}

theorem count?_eq_readCount (h : IsNumeral ds n) (hn : 1 ≤ n) : count? ds = readCount n := by
  have hnumeric : (Operand.position n).numeric = readCount n := rfl
  rw [h.count?_eq, hnumeric, readCount]
  split
  · simp [Nat.lt_of_succ_le hn]
  · rfl

theorem beginsWithDigit_numeral (h : IsNumeral ds n) (rest : List Char) :
    beginsWithDigit (String.ofList (ds ++ rest)) = true := by
  obtain ⟨d, ds', rfl, hd⟩ := h.exists_cons
  simp [beginsWithDigit, hd]

/-- The count of a phrase that is a number and a letter. -/
theorem phraseCount_placed (h : IsNumeral ds n) (hn : 1 ≤ n) (rest : List Char) :
    phraseCount (String.ofList (ds ++ rest)) ⟨String.singleton op, .position n⟩ = readCount n := by
  rw [phraseCount, beginsWithDigit_numeral h, if_pos rfl, Operand.numeric, readCount]
  by_cases hle : n ≤ maxCount
  · simp [hle, Nat.lt_of_succ_le hn]
  · simp [hle]

end

/-! ## 2. What a text with a number amounts to -/

namespace Keymap

variable {m inner : Keymap} {ds rest : List Char} {n : Nat} {op : Char} {a : Action}

theorem head_ne_of_numeral (h : IsNumeral ds n) {c : Char} (hc : c.isDigit = false)
    (rest : List Char) : (ds ++ rest).head? ≠ some c := by
  obtain ⟨d, ds', rfl, hd⟩ := h.exists_cons
  intro heq
  rw [Option.some.inj heq] at hd
  exact absurd hd (by simp [hc])

/-- A number with a letter behind it is no beginning of a phrase. -/
theorem not_beginning_of_numeral (h : IsNumeral ds n) (hop : op.isAlpha = true)
    (rest : List Char) : ¬ Phrase.Beginning (ds ++ op :: rest) := by
  intro hbeginning
  rcases hbeginning.letter hop with ⟨hnil, -⟩ | hhead
  · exact h.ne_nil hnil
  · have hne := head_ne_of_numeral h (c := '@') (by decide) []
    rw [List.append_nil] at hne
    exact hne hhead

/-- What is no bound phrase is walked, with the number as its count. -/
theorem resolveText_number (h : IsNumeral ds n) (hn : 1 ≤ n) (hop : op.isAlpha = true)
    (more : List Char)
    (hnone : ∀ phrase, Phrase.Spells (ds ++ op :: more) phrase → m.actionFor? phrase = none) :
    m.resolveText (ds ++ op :: more) = walked (String.ofList (ds ++ op :: more)) (readCount n)
      (m.walk ((op :: more).map String.singleton)) := by
  rw [resolveText_of_walk h.digits
    (leadingDigits_of_not_digit (isDigit_eq_false_of_isAlpha hop))
    (head_ne_of_numeral h (by decide) _) hnone (not_beginning_of_numeral h hop more),
    count?_eq_readCount h hn]

/-- **A number and a letter** that is no operator for counts: the letter's action, with the
number as its count and as the position of the phrase, as far as it can be read. -/
theorem resolveText_placed (h : IsNumeral ds n) (hn : 1 ≤ n) (hop : op.isAlpha = true)
    (hcount : op ∉ Phrase.countOperators) (hb : m.get? (String.singleton op) = some (.action a)) :
    m.resolveText (ds ++ [op]) = .resolved ⟨a, String.ofList (ds ++ [op]),
      String.ofList (ds ++ [op]),
      if n ≤ maxPosition then some ⟨String.singleton op, .position n⟩ else none,
      readCount n, none⟩ := by
  by_cases hle : n ≤ maxPosition
  · have hspells : Phrase.Spells (ds ++ [op]) ⟨String.singleton op, .position n⟩ :=
      .placed h hle hop hcount
    have haction : m.actionFor? ⟨String.singleton op, .position n⟩ = some a := by
      simp only [actionFor?, hb]
    rw [resolveText_of_phrase (head_ne_of_numeral h (by decide) _) hspells haction,
      phraseCount_placed h hn, if_pos hle]
  · have hnone : ∀ phrase, Phrase.Spells (ds ++ [op]) phrase → m.actionFor? phrase = none := by
      intro phrase hspells
      obtain ⟨-, ⟨hop', -, -⟩ | ⟨-, hle', -⟩⟩ := hspells.of_letter h hop (by simp)
      · exact absurd hop' hcount
      · exact absurd hle' hle
    have hwalk : m.walk ([op].map String.singleton) = .found a := by
      simp [Keymap.walk, hb]
    rw [resolveText_number h hn hop [] hnone, hwalk, walked, if_neg hle]

/-- **A number and a doubled operator**: the action that waits behind the operator, with the
number as its count. -/
theorem resolveText_doubled (h : IsNumeral ds n) (hn : 1 ≤ n) (hop : op.isAlpha = true)
    (hb : m.get? (String.singleton op) = some (.submap inner))
    (ha : inner.get? (String.singleton op) = some (.action a)) :
    m.resolveText (ds ++ [op, op]) = .resolved ⟨a, String.ofList (ds ++ [op, op]),
      String.ofList (ds ++ [op, op]), none, readCount n, none⟩ := by
  have hcomma : ',' ∉ [op] := by
    intro hmem
    rw [← List.mem_singleton.mp hmem] at hop
    exact absurd hop (by decide)
  have hnone : ∀ phrase, Phrase.Spells (ds ++ [op, op]) phrase → m.actionFor? phrase = none :=
    fun phrase hspells => absurd (hspells.of_letter h hop hcomma).1 (by simp)
  have hwalk : m.walk ([op, op].map String.singleton) = .found a := by
    simp [Keymap.walk, hb, ha]
  rw [resolveText_number h hn hop [op] hnone, hwalk, walked]

/-- A target is awaited behind an operator that waits for more keys. -/
theorem awaits_span (hop : op ∈ Phrase.spanOperators)
    (hb : m.get? (String.singleton op) = some (.submap inner))
    (hds : ds.all Char.isDigit = true) : m.Awaits (op :: ds) := by
  have hhead : ∀ c, [op].head? = some c → c ≠ '@' ∧ c ≠ '"' := by
    intro c hc
    obtain rfl := Option.some.inj hc
    refine ⟨?_, ?_⟩
    all_goals
      rintro rfl
      exact absurd hop (by decide)
  have hown : (op, Operand.count 1) ∈ Phrase.ownOperands := by
    have hall : Phrase.spanOperators.all
        (fun op => Phrase.ownOperands.contains (op, Operand.count 1)) = true := by
      decide
    simpa using List.all_eq_true.mp hall op hop
  have hnone : ∀ phrase, Phrase.Spells [op] phrase → m.actionFor? phrase = none := by
    intro phrase hspells
    have hparse := Phrase.parse_of_spells hspells
    rw [Phrase.parse_bare hown] at hparse
    obtain rfl := Option.some.inj hparse
    simp [actionFor?, hb, Operand.isRange]
  have hfirst : m.resolveText ([] ++ [op]) = .pending :=
    resolveText_of_beginning (fun heq => (hhead _ heq).2 rfl) hnone (.span hop (by simp))
  exact (awaits_nil.append_char hfirst).append_digits hds hhead
    fun more _ hmore => .span hop (all_isDecimal hmore)

/-- **An operator and a target** that can be read: the action for both. -/
theorem resolveText_span (h : IsNumeral ds n) (hle : n ≤ maxPosition)
    (hop : op ∈ Phrase.spanOperators)
    (hb : m.get? (String.ofList [op, 'g']) = some (.action a)) :
    m.resolveText (op :: (ds ++ ['g'])) = .resolved ⟨a, String.ofList (op :: (ds ++ ['g'])),
      String.ofList (op :: (ds ++ ['g'])), some ⟨String.ofList [op, 'g'], .position n⟩,
      none, none⟩ := by
  have hdigit : op.isDigit = false := Phrase.isDigit_of_mem_spanOperators hop
  have hquote : (op :: (ds ++ ['g'])).head? ≠ some '"' := by
    intro heq
    rw [Option.some.inj heq] at hop
    exact absurd hop (by decide)
  have hspells : Phrase.Spells (op :: (ds ++ ['g'])) ⟨String.ofList [op, 'g'], .position n⟩ :=
    .span hop h hle
  have haction : m.actionFor? ⟨String.ofList [op, 'g'], .position n⟩ = some a := by
    simp only [actionFor?, hb]
  have hcount : phraseCount (String.ofList (op :: (ds ++ ['g'])))
      ⟨String.ofList [op, 'g'], .position n⟩ = none := by
    simp [phraseCount, beginsWithDigit, hdigit]
  rw [resolveText_of_phrase hquote hspells haction, hcount]

/-- **Nothing comes of a target that cannot be read**: the walk ends at its first digit. -/
theorem resolveText_span_of_lt (h : IsNumeral ds n) (hlt : maxPosition < n)
    (hop : op ∈ Phrase.spanOperators)
    (hb : m.get? (String.singleton op) = some (.submap inner))
    (hinner : ∀ d : Char, d.isDigit = true → inner.get? (String.singleton d) = none) :
    m.resolveText (op :: (ds ++ ['g'])) = .invalid := by
  have hdigit : leadingDigits (op :: (ds ++ ['g'])) = [] :=
    leadingDigits_of_not_digit (Phrase.isDigit_of_mem_spanOperators hop)
  have hhead : ∀ c, c ∉ Phrase.spanOperators → (op :: (ds ++ ['g'])).head? ≠ some c := by
    intro c hc heq
    rw [← Option.some.inj heq] at hc
    exact hc hop
  have hnone : ∀ phrase, Phrase.Spells ([] ++ op :: (ds ++ ['g'])) phrase →
      m.actionFor? phrase = none :=
    fun phrase hspells => absurd (Phrase.Spells.target_le hspells hop h) (Nat.not_le.mpr hlt)
  have hbeginning : ¬ Phrase.Beginning ([] ++ op :: (ds ++ ['g'])) := by
    intro hbeginning
    have hsplit : [] ++ op :: (ds ++ ['g']) = (op :: ds) ++ 'g' :: [] := rfl
    rw [hsplit] at hbeginning
    rcases hbeginning.letter (by decide) with ⟨hnil, -⟩ | hname
    · exact absurd hnil (by simp)
    · exact hhead '@' (by decide) hname
  have hwalk : m.walk ((op :: (ds ++ ['g'])).map String.singleton) = .lost := by
    obtain ⟨d, ds', rfl, hd⟩ := h.exists_cons
    simp [Keymap.walk, hb, hinner d hd]
  have hresolve := resolveText_of_walk (m := m) rfl hdigit (hhead '"' (by decide)) hnone hbeginning
  rw [hwalk] at hresolve
  exact hresolve

end Keymap

/-! ## 3. Operators on items -/

namespace Action

/-- The action is an operator on items: it asks its host for something to be done with the
positions of its range or, without an operand, with what its count affects. -/
structure Operates (run : Invocation → Reaction) (command : List Nat → String → Command) :
    Prop where
  counted : ∀ i : Invocation, i.operand = none → i.state.affectedPositions i.times ≠ [] →
    (run i).command = some (command (i.state.affectedPositions i.times)
      (State.targetRegister i.register))
  ranged : ∀ (i : Invocation) (start stop : Nat), i.operand = some (.range start stop) →
    i.state.rangePositions start stop ≠ [] →
    (run i).command = some (command (i.state.rangePositions start stop)
      (State.targetRegister i.register))

theorem delete_operates : Operates delete .deleteItems where
  counted i hi hne := by
    simp only [delete, hi]
    exact finish_of_ne hne
  ranged i start stop hi hne := by
    simp only [delete, hi]
    exact finish_of_ne hne

theorem yank_operates : Operates yank .yankItems where
  counted i hi hne := by
    simp only [yank, hi]
    exact finish_of_ne hne
  ranged i start stop hi hne := by
    simp only [yank, hi]
    exact finish_of_ne hne

theorem deleteToPosition_command {i : Invocation} {target : Nat}
    (hi : i.operand = some (.position target))
    (hne : i.state.rangePositions i.state.position target ≠ []) :
    (deleteToPosition i).command
      = some (.deleteToPosition (i.state.rangePositions i.state.position target)
        (clamp target i.state.depth) (State.targetRegister i.register)) := by
  simp only [deleteToPosition, hi]
  exact finish_of_ne hne

end Action

/-! ## 4. Typing numbers -/

namespace Engine.Waits

variable {η : Type} {setup : Setup} {e : Engine η} {ds : List Char} {n : Nat} {op : Char}
  {a : Action} {inner : Keymap} {command : List Nat → String → Command}

theorem isPlain_numeral (h : IsNumeral ds n) : ∀ c ∈ ds, IsPlain c :=
  fun c hc => isPlain_of_isDigit (List.all_eq_true.mp h.digits c hc)

/-- **A number and a letter are typed**: the letter's action runs. -/
theorem run_placed (h : e.Waits setup) (op : Char) (hcount : e.state.pendingCount = none)
    (hds : IsNumeral ds n) (hn : 1 ≤ n) (hop : op.isAlpha = true)
    (hops : op ∉ Phrase.countOperators)
    (hb : Keymap.defaultNormal.get? (String.singleton op) = some (.action a)) :
    let reaction := a.run
      { state := e.state.holding ds
        count := readCount n
        register := none
        operand := if n ≤ maxPosition then some (.position n) else none
        settings := e.settings }
    (e.run (typing (ds ++ [op]))).state.position
        = (reaction.after (e.state.holding ds)).position ∧
      e.requests (ds ++ [op]) = reaction.command.toList := by
  intro reaction
  obtain ⟨hstate, hrequests⟩ := h.run_completes (isPlain_numeral hds) (isPlain_of_isAlpha hop)
    (Keymap.awaits_numeral hds) (Keymap.resolveText_placed hds hn hop hops hb)
  have hinvocation : ∀ phrase : Option Phrase, (⟨a, String.ofList (ds ++ [op]),
      String.ofList (ds ++ [op]), phrase, readCount n, none⟩ : Resolved).invocation
        (e.state.holding ds) e.settings
      = ⟨e.state.holding ds, readCount n, none, phrase.map Phrase.operand, e.settings⟩ := by
    intro phrase
    have hpending : (e.state.holding ds).pendingCount = none := hcount
    simp only [Resolved.invocation, hpending, Option.or_none]
  have hoperand : (if n ≤ maxPosition then
        some (⟨String.singleton op, .position n⟩ : Phrase) else none).map Phrase.operand
      = if n ≤ maxPosition then some (.position n) else none := by
    split <;> rfl
  rw [hstate, State.execute_position, hrequests, Resolved.reaction, hinvocation, hoperand]
  exact ⟨rfl, rfl⟩

/-- **A number and a doubled operator are typed**: the action behind the operator runs. -/
theorem run_doubled (h : e.Waits setup) (op : Char) (hcount : e.state.pendingCount = none)
    (hds : IsNumeral ds n) (hn : 1 ≤ n) (hop : op.isAlpha = true)
    (hb : Keymap.defaultNormal.get? (String.singleton op) = some (.submap inner))
    (ha : inner.get? (String.singleton op) = some (.action a)) :
    e.requests (ds ++ [op, op]) = (a.run
      { state := e.state.holding (ds ++ [op])
        count := readCount n
        register := none
        operand := none
        settings := e.settings }).command.toList := by
  have hplain : ∀ c ∈ ds ++ [op], IsPlain c := by
    intro c hc
    rcases List.mem_append.mp hc with hc | hc
    · exact isPlain_numeral hds c hc
    · rw [List.mem_singleton.mp hc]
      exact isPlain_of_isAlpha hop
  have hawaits : Keymap.defaultNormal.Awaits (ds ++ [op]) :=
    (Keymap.awaits_numeral hds).append_char (Keymap.resolveText_waits hds.digits hop hb)
  have hresolve := Keymap.resolveText_doubled hds hn hop hb ha
  have hsplit : ds ++ [op, op] = (ds ++ [op]) ++ [op] := by simp
  rw [hsplit] at hresolve ⊢
  obtain ⟨-, hrequests⟩ := h.run_completes hplain (isPlain_of_isAlpha hop) hawaits hresolve
  have hpending : (e.state.holding (ds ++ [op])).pendingCount = none := hcount
  rw [hrequests, Resolved.reaction, Resolved.invocation]
  simp only [hpending, Option.or_none, Option.map_none]

/-! ## 5. Counts -/

/-- The items that an operator on so many of them names.  There is one under the cursor. -/
theorem affectedPositions_holding (h : e.Waits setup) (hd : 1 ≤ e.state.depth) (k : Nat)
    (cs : List Char) :
    (e.state.holding cs).affectedPositions k
        = positionsBetween e.state.position
            (min (e.state.position + max k 1 - 1) e.state.depth) ∧
      (e.state.holding cs).affectedPositions k ≠ [] := by
  have heq := State.affectedPositions_unselected (s := e.state.holding cs)
    h.selection_eq_none k
  have hle : e.state.position ≤ e.state.depth := h.position_le hd
  refine ⟨heq, ?_⟩
  rw [heq]
  refine positionsBetween_ne_nil ?_
  simp only [State.holding]
  omega

theorem run_down (h : e.Waits setup) (hcount : e.state.pendingCount = none)
    (hd₁ : 1 ≤ e.state.depth) (hd₂ : e.state.depth ≤ maxSigned) (hds : IsNumeral ds n)
    (hn : 1 ≤ n) : (e.run (typing (ds ++ ['j']))).state.position
      = min (e.state.position + countTaken n) e.state.depth := by
  obtain ⟨hposition, -⟩ := h.run_placed 'j' (a := ⟨"move_down", Action.moveDown⟩) hcount hds hn
    (by decide) (by decide) rfl
  rw [hposition]
  exact State.moveBy_up (s := e.state.holding ds) h.one_le_position (h.position_le hd₁) hd₂ _

theorem run_up (h : e.Waits setup) (hcount : e.state.pendingCount = none)
    (hd₁ : 1 ≤ e.state.depth) (hd₂ : e.state.depth ≤ maxSigned) (hds : IsNumeral ds n)
    (hn : 1 ≤ n) : (e.run (typing (ds ++ ['k']))).state.position
      = max (e.state.position - countTaken n) 1 := by
  obtain ⟨hposition, -⟩ := h.run_placed 'k' (a := ⟨"move_up", Action.moveUp⟩) hcount hds hn
    (by decide) (by decide) rfl
  rw [hposition]
  exact State.moveBy_down (s := e.state.holding ds) h.one_le_position (h.position_le hd₁) hd₂ _

/-- **A number and a doubled operator on items are typed**: the operator takes that many, as
far as there are so many. -/
theorem run_items (h : e.Waits setup) (op : Char) (ho : Action.Operates a.run command)
    (hcount : e.state.pendingCount = none) (hd : 1 ≤ e.state.depth) (hds : IsNumeral ds n)
    (hn : 1 ≤ n) (hop : op.isAlpha = true)
    (hb : Keymap.defaultNormal.get? (String.singleton op) = some (.submap inner))
    (ha : inner.get? (String.singleton op) = some (.action a)) :
    e.requests (ds ++ [op, op]) = [command (positionsBetween e.state.position
      (min (e.state.position + countTaken n - 1) e.state.depth)) unnamedRegister] := by
  have hmax : max (countTaken n) 1 = countTaken n := Nat.max_eq_left (one_le_countTaken hn)
  obtain ⟨heq, hne⟩ := h.affectedPositions_holding hd (countTaken n) (ds ++ [op])
  rw [hmax] at heq
  rw [h.run_doubled op hcount hds hn hop hb ha, ← heq]
  exact congrArg Option.toList (ho.counted _ rfl hne)

/-- The run that a count asks for is the one that is taken, exactly if the count can be read or
the cursor stands at the top. -/
theorem run_eq_iff (h : e.Waits setup) (hd : 1 ≤ e.state.depth) (hn : 1 ≤ n) :
    positionsBetween e.state.position
        (min (e.state.position + countTaken n - 1) e.state.depth)
      = positionsBetween e.state.position (min (e.state.position + n - 1) e.state.depth) ↔
    n ≤ maxCount ∨ e.state.depth ≤ e.state.position := by
  have hle := h.position_le hd
  have hpos := one_le_countTaken hn
  rw [positionsBetween_inj (by omega)]
  rcases countTaken_cases n with ⟨hread, htaken⟩ | ⟨hread, htaken⟩
  · simp [htaken, hread]
  · rw [htaken]
    simp only [maxCount, true_and] at hread ⊢
    omega

/-- **Counts saturate as far as they can be read.**  An engine waits for a command on a stack of
a depth below `2 ^ 63`, no count was set, and a number from 1 on is typed in decimal.  Followed
by `j` or `k` it moves the cursor that far, but not beyond the ends of the stack, exactly if
the number is at most `maxCount` or the next item is the end; and followed by `dd` or `yy` it
asks for the deletion or the copy of that many items, as far as there are so many, exactly if
it is at most `maxCount` or the cursor stands at the top. -/
theorem counts_saturate_iff (h : e.Waits setup) (hcount : e.state.pendingCount = none)
    (hd₁ : 1 ≤ e.state.depth) (hd₂ : e.state.depth ≤ maxSigned) (hds : IsNumeral ds n)
    (hn : 1 ≤ n) :
    ((e.run (typing (ds ++ ['j']))).state.position
        = min (e.state.position + n) e.state.depth ↔
      n ≤ maxCount ∨ e.state.depth ≤ e.state.position + 1) ∧
    ((e.run (typing (ds ++ ['k']))).state.position = max (e.state.position - n) 1 ↔
      n ≤ maxCount ∨ e.state.position ≤ 2) ∧
    (e.requests (ds ++ ['d', 'd']) = [.deleteItems (positionsBetween e.state.position
        (min (e.state.position + n - 1) e.state.depth)) unnamedRegister] ↔
      n ≤ maxCount ∨ e.state.depth ≤ e.state.position) ∧
    (e.requests (ds ++ ['y', 'y']) = [.yankItems (positionsBetween e.state.position
        (min (e.state.position + n - 1) e.state.depth)) unnamedRegister] ↔
      n ≤ maxCount ∨ e.state.depth ≤ e.state.position) := by
  have hp₁ : 1 ≤ e.state.position := h.one_le_position
  have hp₂ : e.state.position ≤ e.state.depth := h.position_le hd₁
  -- beyond the largest count one step is taken, and that is enough only next to an end
  refine ⟨?_, ?_, ?_, ?_⟩
  · rw [h.run_down hcount hd₁ hd₂ hds hn]
    rcases countTaken_cases n with ⟨hread, htaken⟩ | ⟨hread, htaken⟩
    · simp [htaken, hread]
    · rw [htaken]
      simp only [maxCount] at hread ⊢
      omega
  · rw [h.run_up hcount hd₁ hd₂ hds hn]
    rcases countTaken_cases n with ⟨hread, htaken⟩ | ⟨hread, htaken⟩
    · simp [htaken, hread]
    · rw [htaken]
      simp only [maxCount] at hread ⊢
      omega
  · rw [h.run_items (a := ⟨"delete", Action.delete⟩) 'd' Action.delete_operates hcount hd₁ hds hn
      (by decide) rfl rfl, ← h.run_eq_iff hd₁ hn]
    simp
  · rw [h.run_items (a := ⟨"yank", Action.yank⟩) 'y' Action.yank_operates hcount hd₁ hds hn
      (by decide) rfl rfl, ← h.run_eq_iff hd₁ hn]
    simp

/-- Twenty of twelve: the cursor stops at the ends, and so does what is deleted. -/
theorem counts_saturate_past_top :
    let e : Engine Unit := (Setup.start { depth := 12 }).run (typing ['4', 'j'])
    let ds : List Char := ['0', '2', '0']
    (e.Waits { depth := 12 } ∧ e.state.pendingCount = none ∧ 1 ≤ e.state.depth ∧
        e.state.depth ≤ maxSigned ∧ IsNumeral ds 20 ∧ 20 ≤ maxCount) ∧
      (e.run (typing (ds ++ ['j']))).state.position
        = min (e.state.position + 20) e.state.depth ∧
      (e.run (typing (ds ++ ['k']))).state.position = max (e.state.position - 20) 1 ∧
      e.requests (ds ++ ['d', 'd']) = [.deleteItems (positionsBetween e.state.position
        (min (e.state.position + 20 - 1) e.state.depth)) unnamedRegister] ∧
      e.requests (ds ++ ['y', 'y']) = [.yankItems (positionsBetween e.state.position
        (min (e.state.position + 20 - 1) e.state.depth)) unnamedRegister] := by
  intro e ds
  have h : e.Waits { depth := 12 } :=
    ⟨rfl, Reachable.start.run _, by decide +kernel, by decide +kernel⟩
  obtain ⟨hcount, hd₁, hd₂⟩ :
      e.state.pendingCount = none ∧ 1 ≤ e.state.depth ∧ e.state.depth ≤ maxSigned := by
    decide +kernel
  have hds : IsNumeral ds 20 := ⟨by decide, by decide, by decide⟩
  have hread : 20 ≤ maxCount := by decide
  obtain ⟨hdown, hup, hdelete, hyank⟩ := counts_saturate_iff h hcount hd₁ hd₂ hds (by decide)
  exact ⟨⟨h, hcount, hd₁, hd₂, hds, hread⟩, hdown.mpr (.inl hread), hup.mpr (.inl hread),
    hdelete.mpr (.inl hread), hyank.mpr (.inl hread)⟩

/-- A count of 33 bits is no count: the cursor moves by one, and one item of three is copied. -/
theorem counts_of_33_bits :
    let e : Engine Unit := Setup.start { depth := 3 }
    let ds : List Char := "4294967296".toList
    (e.Waits { depth := 3 } ∧ e.state.pendingCount = none ∧ e.state.position = 1 ∧
        e.state.depth = 3 ∧ IsNumeral ds 4294967296) ∧
      (e.run (typing (ds ++ ['j']))).state.position = 2 ∧
      (e.run (typing (ds ++ ['j']))).state.position
        ≠ min (e.state.position + 4294967296) e.state.depth ∧
      e.requests (ds ++ ['y', 'y']) = [.yankItems [1] unnamedRegister] ∧
      e.requests (ds ++ ['y', 'y']) ≠ [.yankItems (positionsBetween e.state.position
        (min (e.state.position + 4294967296 - 1) e.state.depth)) unnamedRegister] := by
  intro e ds
  exact ⟨⟨⟨rfl, .start, rfl, rfl⟩, rfl, rfl, rfl, by decide, by decide, by decide⟩,
    by decide +kernel⟩

/-! ## 6. Targets -/

/-- **A number and `g` are typed**: the cursor goes where the number says, if it is one. -/
theorem run_goto (h : e.Waits setup) (hcount : e.state.pendingCount = none)
    (hd₁ : 1 ≤ e.state.depth) (hd₂ : e.state.depth ≤ maxSigned) (hds : IsNumeral ds n)
    (hn : 1 ≤ n) :
    (e.run (typing (ds ++ ['g']))).state.position = min (targetTaken n) e.state.depth ∧
      e.requests (ds ++ ['g']) = [.moveToPosition (min (targetTaken n) e.state.depth)] := by
  obtain ⟨hposition, hrequests⟩ := h.run_placed 'g' (a := ⟨"goto_position", Action.gotoPosition⟩)
    hcount hds hn (by decide) (by decide) rfl
  have hle : e.state.position ≤ maxSigned := Nat.le_trans (h.position_le hd₁) hd₂
  have hjump : ((e.state.holding ds).jumpTo (signed (targetTaken n))).position
      = min (targetTaken n) e.state.depth := by
    have htaken : 1 ≤ targetTaken n := by
      unfold targetTaken
      split <;> omega
    rw [State.jumpTo_signed (s := e.state.holding ds) hle hd₂]
    simp only [clamp, State.holding]
    omega
  -- both ways in which the action finds its target come to the same
  have hreaction : Action.gotoPosition
      { state := e.state.holding ds
        count := readCount n
        register := none
        operand := if n ≤ maxPosition then some (.position n) else none
        settings := e.settings }
      = .emit ((e.state.holding ds).jumpTo (signed (targetTaken n)))
          (.moveToPosition ((e.state.holding ds).jumpTo (signed (targetTaken n))).position) := by
    by_cases hread : n ≤ maxPosition
    · simp only [targetTaken, if_pos hread]
      rfl
    · have hlarge : readCount n = none := by
        refine if_neg ?_
        simp only [maxPosition, maxCount] at hread ⊢
        omega
      have hone : signed 1 = 1 := by decide
      simp only [targetTaken, if_neg hread, hlarge, hone]
      rfl
  simp only [hreaction] at hposition hrequests
  rw [hposition, hrequests]
  exact ⟨hjump, by rw [hjump]; rfl⟩

theorem isPlain_span (h : IsNumeral ds n) : ∀ c ∈ 'd' :: ds, IsPlain c := by
  intro c hc
  rcases List.mem_cons.mp hc with rfl | hc
  · exact isPlain_of_isAlpha rfl
  · exact isPlain_numeral h c hc

/-- **`d`, a number and `g` are typed**: what is between the cursor and the target is deleted. -/
theorem run_target (h : e.Waits setup) (hd : 1 ≤ e.state.depth) (hds : IsNumeral ds n)
    (hn : 1 ≤ n) (hle : n ≤ maxPosition) :
    e.requests ('d' :: (ds ++ ['g'])) = [.deleteToPosition
      (positionsBetween (min e.state.position (min n e.state.depth))
        (max e.state.position (min n e.state.depth))) (min n e.state.depth) unnamedRegister] := by
  have hawaits : Keymap.defaultNormal.Awaits ('d' :: ds) :=
    Keymap.awaits_span (by decide) rfl hds.digits
  have hresolve : Keymap.defaultNormal.resolveText (('d' :: ds) ++ ['g']) = _ :=
    Keymap.resolveText_span (a := ⟨"delete_to_position", Action.deleteToPosition⟩) hds hle
      (by decide) rfl
  obtain ⟨-, hrequests⟩ := h.run_completes (isPlain_span hds) (isPlain_of_isAlpha rfl)
    hawaits hresolve
  have htarget : clamp n e.state.depth = min n e.state.depth := by
    simp only [clamp]
    omega
  have hrange : (e.state.holding ('d' :: ds)).rangePositions e.state.position n
      = positionsBetween (min e.state.position (min n e.state.depth))
          (max e.state.position (min n e.state.depth)) := by
    have hcursor : clamp e.state.position e.state.depth = e.state.position :=
      clamp_of_mem h.one_le_position (h.position_le hd)
    rw [State.rangePositions_eq (s := e.state.holding ('d' :: ds)) hd]
    simp only [State.holding, hcursor, htarget]
  have hne : (e.state.holding ('d' :: ds)).rangePositions e.state.position n ≠ [] := by
    rw [hrange]
    exact positionsBetween_ne_nil (by omega)
  have hcommand := Action.deleteToPosition_command
    (i := { state := e.state.holding ('d' :: ds)
            count := e.state.pendingCount
            register := none
            operand := some (.position n)
            settings := e.settings }) rfl hne
  rw [← hrange, ← htarget]
  exact hrequests.trans (congrArg Option.toList hcommand)

/-- A target that is no position is dropped with its operator. -/
theorem run_target_of_lt (h : e.Waits setup) (hds : IsNumeral ds n) (hlt : maxPosition < n) :
    e.requests ('d' :: (ds ++ ['g'])) = [] := by
  have hresolve : Keymap.defaultNormal.resolveText (('d' :: ds) ++ ['g']) = .invalid := by
    have hb : Keymap.defaultNormal.get? (String.singleton 'd')
        = some (.submap ⟨"delete", [Keymap.bind "d" "delete" Action.delete]⟩) := rfl
    refine Keymap.resolveText_span_of_lt hds hlt (by decide) hb ?_
    intro d hd
    refine Option.eq_none_iff_forall_ne_some.mpr fun b hb => ?_
    have hmem := List.mem_singleton.mp (KeyTable.mem_of_get? hb)
    obtain rfl : d = 'd' := String.singleton_inj.mp (Prod.mk.inj hmem).1
    exact absurd hd (by decide)
  exact (h.run_rejected (isPlain_span hds) (c := 'g') (by decide)
    (Keymap.awaits_span (by decide) rfl hds.digits) hresolve).2

/-- **Targets saturate as far as they can be read.**  An engine waits for a command on a stack
of a depth below `2 ^ 63`, no count was set, and a number from 1 on is typed in decimal.
Followed by `g` it takes the cursor to that position, or to the top, exactly if it is at most
`maxPosition` or there is only one position; and between `d` and `g` it asks for the deletion of
everything between the cursor and that position, or the top, exactly if it is at most
`maxPosition`. -/
theorem targets_saturate_iff (h : e.Waits setup) (hcount : e.state.pendingCount = none)
    (hd₁ : 1 ≤ e.state.depth) (hd₂ : e.state.depth ≤ maxSigned) (hds : IsNumeral ds n)
    (hn : 1 ≤ n) :
    ((e.run (typing (ds ++ ['g']))).state.position = min n e.state.depth ∧
        e.requests (ds ++ ['g']) = [.moveToPosition (min n e.state.depth)] ↔
      n ≤ maxPosition ∨ e.state.depth = 1) ∧
    (e.requests ('d' :: (ds ++ ['g'])) = [.deleteToPosition
        (positionsBetween (min e.state.position (min n e.state.depth))
          (max e.state.position (min n e.state.depth))) (min n e.state.depth) unnamedRegister] ↔
      n ≤ maxPosition) := by
  constructor
  · obtain ⟨hposition, hrequests⟩ := h.run_goto hcount hd₁ hd₂ hds hn
    rw [hposition, hrequests]
    by_cases hread : n ≤ maxPosition
    · simp [targetTaken, hread]
    · have hdepth : e.state.depth < n := by
        simp only [maxSigned, maxPosition] at hd₂ hread
        omega
      simp only [targetTaken, if_neg hread, List.cons.injEq, Command.moveToPosition.injEq,
        and_true, and_self]
      omega
  · by_cases hread : n ≤ maxPosition
    · exact iff_of_true (h.run_target hd₁ hds hn hread) hread
    · rw [h.run_target_of_lt hds (Nat.not_le.mp hread)]
      exact iff_of_false (by simp) hread

/-- The largest number of 64 bits leads to the top. -/
theorem targets_saturate_at_limit :
    let e : Engine Unit := (Setup.start { depth := 12 }).run (typing ['4', 'j'])
    let ds : List Char := "18446744073709551615".toList
    (e.Waits { depth := 12 } ∧ e.state.pendingCount = none ∧ 1 ≤ e.state.depth ∧
        e.state.depth ≤ maxSigned ∧ IsNumeral ds maxPosition) ∧
      (e.run (typing (ds ++ ['g']))).state.position = min maxPosition e.state.depth ∧
      e.requests (ds ++ ['g']) = [.moveToPosition (min maxPosition e.state.depth)] ∧
      e.requests ('d' :: (ds ++ ['g'])) = [.deleteToPosition
        (positionsBetween (min e.state.position (min maxPosition e.state.depth))
          (max e.state.position (min maxPosition e.state.depth)))
        (min maxPosition e.state.depth) unnamedRegister] := by
  intro e ds
  have h : e.Waits { depth := 12 } :=
    ⟨rfl, Reachable.start.run _, by decide +kernel, by decide +kernel⟩
  obtain ⟨hcount, hd₁, hd₂⟩ :
      e.state.pendingCount = none ∧ 1 ≤ e.state.depth ∧ e.state.depth ≤ maxSigned := by
    decide +kernel
  have hds : IsNumeral ds maxPosition := ⟨by decide, by decide, by decide⟩
  obtain ⟨hgoto, hdelete⟩ := targets_saturate_iff h hcount hd₁ hd₂ hds (by decide)
  have hread : maxPosition ≤ maxPosition := Nat.le_refl _
  obtain ⟨hposition, hrequests⟩ := hgoto.mpr (.inl hread)
  exact ⟨⟨h, hcount, hd₁, hd₂, hds⟩, hposition, hrequests, hdelete.mpr hread⟩

/-- A target of 65 bits is none: `g` goes to the bottom, and with `d` before it nothing is
deleted. -/
theorem targets_of_65_bits :
    let e : Engine Unit := Setup.start { depth := 10 }
    let ds : List Char := "18446744073709551616".toList
    (e.Waits { depth := 10 } ∧ e.state.pendingCount = none ∧ e.state.position = 1 ∧
        e.state.depth = 10 ∧ IsNumeral ds 18446744073709551616) ∧
      (e.run (typing (ds ++ ['g']))).state.position = 1 ∧
      (e.run (typing (ds ++ ['g']))).state.position ≠ min 18446744073709551616 e.state.depth ∧
      e.requests ('d' :: (ds ++ ['g'])) = [] := by
  intro e ds
  have h : e.Waits { depth := 10 } := ⟨rfl, .start, rfl, rfl⟩
  have hds : IsNumeral ds 18446744073709551616 := ⟨by decide, by decide, by decide⟩
  have hposition : (e.run (typing (ds ++ ['g']))).state.position = 1 := by decide +kernel
  refine ⟨⟨h, rfl, rfl, rfl, hds⟩, hposition, ?_, h.run_target_of_lt hds (by decide)⟩
  rw [hposition]
  decide

end Engine.Waits

end ModalStack
