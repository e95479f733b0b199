/-
# The grammar of changes

Which commands are remembered for `.` is decided by their text: a grammar is asked about the keys
that were typed, and never about the action that ran.  Here the two are compared.

The default keys fall into those whose actions ask for changes and the others (`changeKeys`,
`Action.Fits`).  A command has one of five forms, and in each of them the grammar tells the keys of
changes from the others, except that a range goes before any letter, and the grammar has it before
`d`, `x`, `y`, `Y` and `c` only.  So `2,3p` is a change that is not repeatable
(`Change.Forgotten`), and with that exception a command is repeatable exactly if its key is one of
changes (`Keymap.Form.isRepeatable_iff`).

Of the actions themselves two things are shown: which of them ask for changes, and that none
touches the memory (`Bound.lastChange`).
-/
import ModalStack.Proofs.CommandForms

namespace ModalStack

open Numeral

/-! ## 1. Changes -/

/-- The command asks for a change: something is done with the items. -/
def Command.IsChange : Command → Prop
  | .deleteItems _ _ | .yankItems _ _ | .pasteItems _ _ _ | .swapItems _ | .rotateItems _
  | .deleteToPosition _ _ _ | .yankToPosition _ _ _ | .openItem _ _ | .changeItems _ _ => True
  | _ => False

theorem Command.IsNews.not_isChange {c : Command} (h : c.IsNews) : ¬ c.IsChange := by
  cases c with
  | modeChange _ | bufferUpdate _ | selectionChange _ => exact id
  | _ => exact absurd h id

namespace Action

/-- The actions that ask for changes. -/
inductive Changes : (Invocation → Reaction) → Prop
  | delete : Changes delete
  | yank : Changes yank
  | deleteToPosition : Changes deleteToPosition
  | yankToPosition : Changes yankToPosition
  | paste (after : Bool) : Changes (paste after)
  | openItem (above : Bool) : Changes (openItem above)
  | change : Changes change
  | swap : Changes swap
  | rotate : Changes rotate

/-- The actions that leave the items alone: motions, searches, the ways from mode to mode, and the
repetition, which is up to the host. -/
inductive Keeps : (Invocation → Reaction) → Prop
  | moveDown : Keeps moveDown
  | moveUp : Keeps moveUp
  | gotoPosition : Keeps gotoPosition
  | gotoBottom : Keeps gotoBottom
  | gotoTop : Keeps gotoTop
  | gotoNamed : Keeps gotoNamed
  | insertMode : Keeps insertMode
  | visualMode : Keeps visualMode
  | commandMode : Keeps commandMode
  | search (direction : Direction) : Keeps (search direction)
  | nextMatch (reverse : Bool) : Keeps (nextMatch reverse)
  | dotRepeat : Keeps dotRepeat
  | escape : Keeps escape

variable {run : Invocation → Reaction} {i : Invocation} {c : Command}

theorem Keeps.not_isChange (h : Keeps run) (hc : (run i).command = some c) : ¬ c.IsChange := by
  cases h with
  | moveDown | moveUp | gotoPosition | gotoBottom =>
    obtain rfl := Option.some.inj hc
    exact id
  | gotoTop =>
    unfold Action.gotoTop at hc
    split at hc
    · obtain rfl := Option.some.inj hc
      exact id
    · obtain rfl := Option.some.inj hc
      exact id
  | gotoNamed =>
    unfold Action.gotoNamed at hc
    split at hc
    · obtain rfl := Option.some.inj hc
      exact id
    · exact absurd hc (by simp [Reaction.nothing])
  | nextMatch _ | dotRepeat =>
    obtain ⟨-, -, rfl⟩ := Option.map_eq_some_iff.mp hc
    exact id
  | insertMode => exact absurd hc (by simp [Action.insertMode, Reaction.move])
  | visualMode => exact absurd hc (by simp [Action.visualMode, Reaction.move])
  | commandMode => exact absurd hc (by simp [Action.commandMode, Reaction.move])
  | search _ => exact absurd hc (by simp [Action.search, Reaction.move])
  | escape => exact absurd hc (by simp [Action.escape, Reaction.move])

/-- Every one of them has something to ask for: on three items, with a position typed. -/
theorem Changes.exists_isChange (h : Changes run) :
    ∃ i c, (run i).command = some c ∧ c.IsChange := by
  let i : Invocation :=
    { state := { depth := 3 }
      count := none
      register := none
      operand := some (.position 2)
      settings := {} }
  cases h with
  | _ => exact ⟨i, _, rfl, trivial⟩

/-- No action is of both sorts. -/
theorem Changes.not_keeps (h : Changes run) : ¬ Keeps run := by
  intro hkeeps
  obtain ⟨i, c, hc, hchange⟩ := h.exists_isChange
  exact hkeeps.not_isChange hc hchange

end Action

/-- No action touches the memory of the last change. -/
theorem Bound.lastChange {i : Invocation} {mode : Mode} {run : Invocation → Reaction}
    (hb : Bound mode run) : ((run i).after i.state).lastChange = i.state.lastChange := by
  have hmoveBy (offset : Int) : (i.state.moveBy offset).lastChange = i.state.lastChange := by
    rw [State.moveBy_eq]
  have hjumpTo (position : Int) : (i.state.jumpTo position).lastChange = i.state.lastChange := by
    rw [State.jumpTo_eq]
  cases hb with
  | moveDown _ | moveUp _ => exact hmoveBy _
  | gotoPosition _ | gotoBottom _ => exact hjumpTo _
  | gotoTop _ =>
    unfold Action.gotoTop
    split
    · exact hjumpTo _
    · exact hjumpTo _
  | gotoNamed =>
    unfold Action.gotoNamed
    split
    · rfl
    · rfl
  | delete _ =>
    rw [Action.delete, Action.finish_after]
    split
    · rfl
    · rfl
  | yank _ =>
    rw [Action.yank, Action.finish_after]
    split
    · rfl
    · rfl
  | deleteToPosition =>
    unfold Action.deleteToPosition
    split
    · rw [Action.finish_after]
      rfl
    · rfl
  | yankToPosition =>
    unfold Action.yankToPosition
    split
    · rw [Action.finish_after]
      rfl
    · rfl
  | change _ =>
    rw [Action.change, Action.finish_after]
    rfl
  | swap =>
    rw [Action.swap, Action.finish_after]
    rfl
  | rotate =>
    rw [Action.rotate, Action.finish_after]
    rfl
  | _ => rfl

/-! ## 2. The keys of changes -/

/-- The default keys whose actions change items. -/
def changeKeys : List String :=
  ["d", "x", "y", "Y", "p", "P", "s", "r", "o", "O", "c", "S", "dg", "xg", "yg"]

/-- The action is of the sort that the key is. -/
inductive Action.Fits (key : String) (a : Action) : Prop
  | changes : key ∈ changeKeys → Changes a.run → Fits key a
  | keeps : key ∉ changeKeys → Keeps a.run → Fits key a

theorem Action.Fits.changes_iff {key : String} {a : Action} (h : Fits key a) :
    Changes a.run ↔ key ∈ changeKeys := by
  cases h with
  | changes hkey hchanges => exact iff_of_true hchanges hkey
  | keeps hkey hkeeps => exact iff_of_false (fun hchanges => hchanges.not_keeps hkeeps) hkey

namespace Keymap

/-- The keys that are there for phrases only. -/
def targetKeys : List String := ["dg", "xg", "yg"]

/-- The grammar of changes knows the key for what it is, typed as often as it has to be. -/
def knownToGrammar : String × Binding → Bool
  | (key, .action _) =>
    key ∈ targetKeys || Change.isRepeatable key == decide (key ∈ changeKeys)
  | (key, .submap _) => Change.isRepeatable (key ++ key) && decide (key ∈ changeKeys)

/-- What the default keymaps have in common with the grammar of changes. -/
structure Recorded (m : Keymap) : Prop where
  fits : ∀ e ∈ m.entries, e.2.All (Action.Fits e.1)
  /-- Keys wait for themselves at most. -/
  doubled : ∀ e ∈ m.entries, e.2.isDoubled e.1 = true
  /-- No key goes on the digits before it. -/
  ends : ∀ e ∈ m.entries, endsNumeral e.1.toList = true
  known : ∀ e ∈ m.entries, knownToGrammar e = true
  /-- What the grammar has behind ranges are keys of changes. -/
  ranged : ∀ e ∈ m.entries, e.1.toList ∈ Change.rangeOperators → e.1 ∈ changeKeys

theorem motions_fit : ∀ e ∈ motions, e.2.All (Action.Fits e.1) := by
  simp only [motions, List.forall_mem_cons]
  exact ⟨bind_all (.keeps (by decide) .moveDown), bind_all (.keeps (by decide) .moveDown),
    bind_all (.keeps (by decide) .moveUp), bind_all (.keeps (by decide) .moveUp),
    bind_all (.keeps (by decide) .gotoPosition), bind_all (.keeps (by decide) .gotoBottom),
    bind_all (.keeps (by decide) .gotoTop), by simp⟩

theorem defaultNormal_fits : ∀ e ∈ defaultNormal.entries, e.2.All (Action.Fits e.1) := by
  refine List.forall_mem_append.mpr ⟨motions_fit, ?_⟩
  simp only [List.forall_mem_cons]
  exact ⟨bindDoubled_all (.changes (by decide) .delete),
    bind_all (.changes (by decide) .deleteToPosition),
    bindDoubled_all (.changes (by decide) .delete),
    bind_all (.changes (by decide) .deleteToPosition),
    bindDoubled_all (.changes (by decide) .yank),
    bind_all (.changes (by decide) .yankToPosition),
    bind_all (.changes (by decide) .yank), bind_all (.changes (by decide) (.paste true)),
    bind_all (.changes (by decide) (.paste false)), bind_all (.changes (by decide) .swap),
    bind_all (.changes (by decide) .rotate), bind_all (.changes (by decide) (.openItem false)),
    bind_all (.changes (by decide) (.openItem true)),
    bindDoubled_all (.changes (by decide) .change), bind_all (.changes (by decide) .change),
    bind_all (.keeps (by decide) .insertMode), bind_all (.keeps (by decide) .insertMode),
    bind_all (.keeps (by decide) .visualMode), bind_all (.keeps (by decide) .visualMode),
    bind_all (.keeps (by decide) (.search .forward)),
    bind_all (.keeps (by decide) (.search .backward)),
    bind_all (.keeps (by decide) (.nextMatch false)),
    bind_all (.keeps (by decide) (.nextMatch true)), bind_all (.keeps (by decide) .commandMode),
    bind_all (.keeps (by decide) .dotRepeat), bind_all (.keeps (by decide) .gotoNamed),
    bind_all (.keeps (by decide) .escape), by simp⟩

theorem defaultVisual_fits : ∀ e ∈ defaultVisual.entries, e.2.All (Action.Fits e.1) := by
  refine List.forall_mem_append.mpr ⟨motions_fit, ?_⟩
  simp only [List.forall_mem_cons]
  exact ⟨bind_all (.changes (by decide) .delete), bind_all (.changes (by decide) .delete),
    bind_all (.changes (by decide) .yank), bind_all (.changes (by decide) .yank),
    bind_all (.changes (by decide) .change), bind_all (.keeps (by decide) .escape),
    bind_all (.keeps (by decide) .escape), bind_all (.keeps (by decide) .escape), by simp⟩

theorem defaultInsert_fits : ∀ e ∈ defaultInsert.entries, e.2.All (Action.Fits e.1) := by
  simp only [defaultInsert, List.forall_mem_cons]
  exact ⟨bind_all (.keeps (by decide) .escape), by simp⟩

theorem defaultCommand_fits : ∀ e ∈ defaultCommand.entries, e.2.All (Action.Fits e.1) := by
  simp only [defaultCommand, List.forall_mem_cons]
  exact ⟨bind_all (.keeps (by decide) .escape), bind_all (.keeps (by decide) .escape), by simp⟩

theorem default_recorded {mode : Mode} {m : Keymap}
    (h : Keymaps.default.forMode? mode = some m) : m.Recorded := by
  cases mode with
  | normal =>
    obtain rfl := Option.some.inj h
    exact ⟨defaultNormal_fits, by decide, by decide +kernel, by decide +kernel, by decide +kernel⟩
  | insert =>
    obtain rfl := Option.some.inj h
    exact ⟨defaultInsert_fits, by decide, by decide +kernel, by decide +kernel, by decide +kernel⟩
  | visual =>
    obtain rfl := Option.some.inj h
    exact ⟨defaultVisual_fits, by decide, by decide +kernel, by decide +kernel, by decide +kernel⟩
  | command =>
    obtain rfl := Option.some.inj h
    exact ⟨defaultCommand_fits, by decide, by decide +kernel, by decide +kernel, by decide +kernel⟩
  | search => exact absurd h (by simp [Keymaps.forMode?])

end Keymap

/-! ## 3. Forms of commands and the grammar -/

namespace Change

variable {cs ds ds' name : List Char} {n k : Nat} {op : Char}

/-- The letters of changes that the grammar has no ranges for. -/
def rangelessOperators : List Char := ['p', 'P', 's', 'r', 'o', 'O', 'S']

/-- A change behind a range that the grammar does not have there. -/
inductive Forgotten : List Char → Prop
  | ranged {ds ds' : List Char} {n k : Nat} {op : Char} : IsNumeral ds n → IsNumeral ds' k →
      op ∈ rangelessOperators → Forgotten (ds ++ ',' :: (ds' ++ [op]))

/-- A text with digits before it is repeatable if it is so without them. -/
theorem isRepeatable_append (hds : ds.all Char.isDigit = true) (hcs : endsNumeral cs = true) :
    isRepeatable (String.ofList (ds ++ cs)) = isRepeatable (String.ofList cs) := by
  obtain ⟨c, more, rfl, hdecimal, hcomma⟩ := exists_of_endsNumeral hcs
  exact isRepeatable_behind_digits hds hdecimal hcomma

/-- An operator alone is no other operator with a target. -/
theorem isOperatorText_singleton {o : List Char} (ho : o ≠ []) :
    isOperatorText o [op] = true ↔ o = [op] := by
  constructor
  · intro h
    have hprefix : o <+: [op] := List.isPrefixOf_iff_prefix.mp ((Bool.and_eq_true _ _).mp h).1
    rcases List.prefix_cons_iff.mp hprefix with hnil | ⟨more, rfl, hmore⟩
    · exact absurd hnil ho
    · rw [List.prefix_nil.mp hmore]
  · rintro rfl
    simp [isOperatorText]

/-- What begins with any other character is none of the forms that take a count. -/
theorem isCountedText_cons {c : Char} (h : c ∉ countOperators) (hr : c ≠ 'r') (cs : List Char) :
    isCountedText (c :: cs) = false := by
  unfold isCountedText
  split
  · rename_i heq
    obtain ⟨rfl, -⟩ := List.cons.inj heq
    simp [h, hr]
  · rename_i heq
    exact absurd (List.cons.inj heq).1 hr
  · rfl

/-- Behind a range the letter decides. -/
theorem isRepeatable_ranged (hn : IsNumeral ds n) (hk : IsNumeral ds' k) (hop : op.isAlpha = true) :
    isRepeatable (String.ofList (ds ++ ',' :: (ds' ++ [op]))) = true ↔ [op] ∈ rangeOperators := by
  have hcomma : (',' :: (ds' ++ [op])).takeWhile Text.isDecimal = [] :=
    List.takeWhile_cons_of_neg (by decide +kernel)
  have hletter : [op].takeWhile Text.isDecimal = [] :=
    List.takeWhile_cons_of_neg (by simp [Phrase.not_isDecimal_of_isAlpha hop])
  obtain ⟨hlead, hafter⟩ := Text.run_append (Keymap.all_isDecimal hn.digits) hcomma
  obtain ⟨hlead', hafter'⟩ := Text.run_append (Keymap.all_isDecimal hk.digits) hletter
  have hrange : afterRange (ds ++ ',' :: (ds' ++ [op])) = [op] := by
    simp only [afterRange, Phrase.leadingDecimals, Phrase.afterDecimals, hlead, hafter, hlead',
      hafter', hn.ne_nil, hk.ne_nil, if_false]
  have hcounted : isCountedText (Phrase.afterDecimals (ds ++ ',' :: (ds' ++ [op]))) = false := by
    rw [Phrase.afterDecimals, hafter]
    exact isCountedText_cons (by decide) (by decide) _
  have hne : ∀ o ∈ rangeOperators, o ≠ [] := by decide
  rw [isRepeatable, String.toList_ofList, hrange, hcounted, Bool.or_false, List.any_eq_true]
  constructor
  · rintro ⟨o, ho, htext⟩
    rwa [← (isOperatorText_singleton (hne o ho)).mp htext]
  · intro hmem
    exact ⟨[op], hmem, (isOperatorText_singleton (hne _ hmem)).mpr rfl⟩

/-- A target makes a change of every operator that has one. -/
theorem isRepeatable_aimed (hop : op ∈ Phrase.spanOperators) (hn : IsNumeral ds n) :
    isRepeatable (String.ofList (op :: (ds ++ ['g']))) = true := by
  have hall : Phrase.spanOperators.all
      (fun o => !Text.isDecimal o && decide ([o] ∈ rangeOperators)) = true := by decide +kernel
  obtain ⟨hdecimal, hoperator⟩ : Text.isDecimal op = false ∧ [op] ∈ rangeOperators := by
    simpa using List.all_eq_true.mp hall op hop
  have hg : ['g'].takeWhile Text.isDecimal = [] :=
    List.takeWhile_cons_of_neg (by decide +kernel)
  obtain ⟨hlead, hafter⟩ := Text.run_append (Keymap.all_isDecimal hn.digits) hg
  have hrange : afterRange (op :: (ds ++ ['g'])) = op :: (ds ++ ['g']) := by
    simp [afterRange, Phrase.leadingDecimals, hdecimal]
  have htarget : isTarget (ds ++ ['g']) = true := by
    simp [isTarget, Phrase.leadingDecimals, Phrase.afterDecimals, hlead, hafter, hn.ne_nil]
  rw [isRepeatable, String.toList_ofList, hrange, Bool.or_eq_true, List.any_eq_true]
  refine .inl ⟨[op], hoperator, ?_⟩
  simp [isOperatorText, htarget]

theorem isRepeatable_named (name : List Char) :
    isRepeatable (String.ofList ('@' :: name)) = false := by
  have hdecimal : Text.isDecimal '@' = false := by decide +kernel
  have hrange : afterRange ('@' :: name) = '@' :: name := by
    simp [afterRange, Phrase.leadingDecimals, hdecimal]
  have hafter : Phrase.afterDecimals ('@' :: name) = '@' :: name := by
    simp [Phrase.afterDecimals, hdecimal]
  have hoperator : ∀ o ∈ rangeOperators, isOperatorText o ('@' :: name) = false := by
    simp [rangeOperators, isOperatorText]
  rw [isRepeatable, String.toList_ofList, hrange, hafter, Bool.or_eq_false_iff,
    List.any_eq_false]
  exact ⟨fun o ho => by simp [hoperator o ho], isCountedText_cons (by decide) (by decide) name⟩

theorem Forgotten.not_isRepeatable (h : Forgotten cs) :
    isRepeatable (String.ofList cs) = false := by
  cases h with
  | @ranged ds ds' n k op hn hk hop =>
    have hall : rangelessOperators.all
        (fun o => o.isAlpha && decide ([o] ∉ rangeOperators)) = true := by decide
    obtain ⟨halpha, hnot⟩ : op.isAlpha = true ∧ [op] ∉ rangeOperators := by
      simpa using List.all_eq_true.mp hall op hop
    rw [← Bool.not_eq_true, isRepeatable_ranged hn hk halpha]
    exact hnot

end Change

namespace Keymap

variable {m : Keymap} {key : String} {cs : List Char} {count : Option Nat} {a : Action}

/-- The keys for phrases alone are no tokens. -/
theorem not_mem_targetKeys (h : IsToken key ∨ key = "gg") : key ∉ targetKeys := by
  intro hmem
  rcases h with htoken | rfl
  · have hshape : ∀ k ∈ targetKeys, k.toList.length = 2 ∧ '-' ∉ k.toList ∧ '<' ∉ k.toList := by
      decide
    obtain ⟨hlength, hhyphen, hbracket⟩ := hshape key hmem
    obtain ⟨c, hc⟩ := htoken.single hhyphen hbracket
    exact absurd hlength (by simp [hc])
  · exact absurd hmem (by decide)

/-- In every form the grammar knows the keys of changes from the others. -/
theorem Form.agrees (h : m.Form key cs count a) (hm : m.Recorded) :
    (Change.isRepeatable (String.ofList cs) = true → key ∈ changeKeys) ∧
      (key ∈ changeKeys → ¬ Change.Forgotten cs →
        Change.isRepeatable (String.ofList cs) = true) := by
  cases h with
  | @once ds key a hds htoken hb =>
    have hmem := KeyTable.mem_of_get? hb
    have hknown := hm.known _ hmem
    simp only [knownToGrammar, not_mem_targetKeys htoken, decide_false, Bool.false_or,
      beq_iff_eq] at hknown
    rw [Change.isRepeatable_append hds (hm.ends _ hmem), String.ofList_toList, hknown,
      decide_eq_true_eq]
    exact ⟨id, fun hkey _ => hkey⟩
  | @twice ds key inner a hds hb ha =>
    have hmem := KeyTable.mem_of_get? hb
    obtain ⟨hrepeatable, hkey⟩ := (Bool.and_eq_true _ _).mp (hm.known _ hmem)
    rw [Change.isRepeatable_append hds (endsNumeral_append (hm.ends _ hmem) _),
      ← String.toList_append, String.ofList_toList]
    exact ⟨fun _ => of_decide_eq_true hkey, fun _ _ => hrepeatable⟩
  | @ranged ds ds' n k op a hn hk hop ha =>
    rw [Change.isRepeatable_ranged hn hk hop]
    constructor
    · intro hoperator
      obtain ⟨b, hmem⟩ := exists_mem_of_actionBehind? ha
      exact hm.ranged _ hmem (by rwa [String.toList_singleton])
    · intro hkey hnot
      have hall : ∀ k ∈ changeKeys, k ∈ targetKeys ∨ k.toList ∈ Change.rangeOperators ∨
          k.toList ∈ Change.rangelessOperators.map ([·]) := by decide
      rcases hall _ hkey with htarget | hoperator | hrangeless
      · exact absurd htarget (not_mem_targetKeys (.inl (isToken_singleton op)))
      · rwa [String.toList_singleton] at hoperator
      · rw [String.toList_singleton, List.mem_map] at hrangeless
        obtain ⟨o, ho, hsingle⟩ := hrangeless
        obtain rfl : o = op := (List.cons.inj hsingle).1
        exact absurd (.ranged hn hk ho) hnot
  | @aimed ds n op a hop hn hb =>
    have hall : Phrase.spanOperators.all
        (fun o => decide (String.ofList [o, 'g'] ∈ changeKeys)) = true := by decide
    have hkey : String.ofList [op, 'g'] ∈ changeKeys :=
      of_decide_eq_true (List.all_eq_true.mp hall op hop)
    exact ⟨fun _ => hkey, fun _ _ => Change.isRepeatable_aimed hop hn⟩
  | @named name a hb =>
    have hkey : "@" ∉ changeKeys := by decide
    rw [Change.isRepeatable_named]
    exact ⟨fun htrue => absurd htrue (by simp), fun hmem => absurd hmem hkey⟩

/-- **A command is repeatable exactly if its key is one of changes**, but for the ranges that are
forgotten. -/
theorem Form.isRepeatable_iff (h : m.Form key cs count a) (hm : m.Recorded) :
    Change.isRepeatable (String.ofList cs) = true ↔ key ∈ changeKeys ∧ ¬ Change.Forgotten cs := by
  obtain ⟨hkey, hrepeatable⟩ := h.agrees hm
  constructor
  · intro hrecorded
    refine ⟨hkey hrecorded, fun hforgotten => ?_⟩
    exact absurd hrecorded (by simp [hforgotten.not_isRepeatable])
  · rintro ⟨hmem, hnot⟩
    exact hrepeatable hmem hnot

end Keymap

end ModalStack
