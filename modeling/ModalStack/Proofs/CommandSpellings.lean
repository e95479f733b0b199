/-
# One command, several spellings

A count can be set before a command or typed with it, and some commands can be typed in two ways:
`Y` and `yy`, `S` and `cc`, `xx` and `dd`, `j` and the arrow down, `k` and the arrow up.  How the
keys are read differs between the spellings.  A typed number can be the operand of a phrase or be
taken off before a walk, and a count that was set is seen by neither.  What runs does not differ:
it is the same function, with the same count and the same register, on states that differ only in
what is half typed; and the operand, where there is one, says nothing that these functions look at.

So the spellings of a command ask the host for the same, and leave the same state but for the text
of the command, which is remembered (`Engine.Idle.count_set_or_typed`,
`Engine.Idle.synonyms_agree`).
-/
import ModalStack.Proofs.ActionInputs
import ModalStack.Proofs.RegisterPrefix
import ModalStack.Proofs.TypedNumbers

namespace ModalStack

open Numeral

/-! ## 1. The same function, with the same count and register -/

namespace State

/-- The state without what is half typed and without the count that was set before it. -/
def untyped (s : State) : State := { s with buffer := "", keys := [], pendingCount := none }

/-- The state without the text of the last command and of the last change. -/
def upToText (s : State) : State :=
  { s with
    lastCommand := s.lastCommand.map fun _ => ""
    lastChange := s.lastChange.map fun c => { c with command := "" } }

end State

/-- What is typed is not looked at. -/
def Unseen.typed : Unseen where
  buffer _ := ""
  keys _ := []
  count _ := none
  registers := id
  buffer_empty := rfl
  keys_nil := rfl
  count_none := rfl

namespace State

variable {mode : Mode} {run : Invocation → Reaction} {s s' : State} {settings : Settings}
  {r r' : Resolved}

/-- Without the text of the command, what a run action leaves is what the action left. -/
theorem execute_upToText (s : State) (settings : Settings) (r : Resolved) :
    (s.execute settings r).1.upToText =
      { ((r.reaction s settings).after s).untyped with
        lastCommand := some ""
        tick := wrap (s.untyped.tick + 1)
        lastChange :=
          if Change.isRepeatable r.body then some ⟨"", r.count.or s.pendingCount, r.register⟩
          else ((r.reaction s settings).after s).untyped.lastChange.map
            fun c => { c with command := "" } } := by
  rw [execute_fst]
  unfold upToText
  split
  · rfl
  · rfl

/-- **The same function runs the same** on states that differ only in what is typed, with the same
count and the same register, if neither operand makes a difference. -/
theorem execute_alike (hb : Bound mode run) (hs : s.untyped = s'.untyped)
    (hr : r.reaction s settings = run (r.invocation s settings).bare)
    (hr' : r'.reaction s' settings = run (r'.invocation s' settings).bare)
    (hcount : r.count.or s.pendingCount = r'.count.or s'.pendingCount)
    (hregister : r.register = r'.register)
    (hrepeatable : Change.isRepeatable r.body = Change.isRepeatable r'.body) :
    (s.execute settings r).2 = (s'.execute settings r').2 ∧
      (s.execute settings r).1.upToText = (s'.execute settings r').1.upToText := by
  -- the action looks at the states only as far as they are the same
  have hinvocation : ((r.invocation s settings).bare).outcome run s.untyped
      = ((r'.invocation s' settings).bare).outcome run s'.untyped := by
    unfold Invocation.outcome Invocation.bare Resolved.invocation
    rw [hs, hcount, hregister]
  have hleft := hb.overlooks .typed (r.invocation s settings).bare s
  have hright := hb.overlooks .typed (r'.invocation s' settings).bare s'
  obtain ⟨hafter, hcommand⟩ := Prod.mk.inj (hleft.symm.trans (hinvocation.trans hright))
  have hafter' : ((r.reaction s settings).after s).untyped
      = ((r'.reaction s' settings).after s').untyped := by
    rw [hr, hr']
    exact hafter
  refine ⟨?_, ?_⟩
  · rw [execute_snd, execute_snd, hr, hr']
    exact hcommand
  · rw [execute_upToText, execute_upToText, hafter', hs, hcount, hregister, hrepeatable]

end State

/-! ## 2. Register prefixes -/

/-- The presses that name a register, if one is named. -/
def registerPrefix : Option Char → List KeyPress
  | none => []
  | some name => [.plain '"', .plain name]

/-- The same action, behind the prefix that names a register, if one is named. -/
def Resolved.inRegister (register : Option Char) (r : Resolved) : Resolved :=
  match register with
  | none => r
  | some name => r.behind (String.singleton name)

/-- The prefix gives the register and changes nothing else. -/
theorem Resolved.Counts.inRegister {r : Resolved} {ds : List Char} {keys : List String}
    {run : Invocation → Reaction} (h : r.Counts ds keys none run) (register : Option Char) :
    (r.inRegister register).Counts ds keys (register.map String.singleton) run := by
  cases register with
  | none => exact h
  | some name => exact ⟨h.run, h.repeatable, h.count, rfl, h.rangeless, h.position⟩

theorem registerPrefix_continues {register : Option Char}
    (hregister : ∀ name ∈ register, isRegisterName name = true) :
    ∀ press ∈ registerPrefix register, press.Continues := by
  cases register with
  | none => exact fun press hpress => absurd hpress List.not_mem_nil
  | some name =>
    have hquote : Text.isWord '"' = true → ('"' : Char).isAlphanum = true :=
      fun hword => absurd hword (by decide +kernel)
    intro press hpress
    simp only [registerPrefix, List.mem_cons, List.not_mem_nil, or_false] at hpress
    rcases hpress with rfl | rfl
    · exact KeyPress.plain_continues hquote
    · refine KeyPress.plain_continues fun hword => ?_
      have hname : name.isAlphanum = true ∨ name = '"' := by
        simpa [isRegisterName] using hregister name rfl
      rcases hname with halnum | rfl
      · exact halnum
      · exact hquote hword

namespace Keymap

variable {m : Keymap} {keys : List String} {r : Resolved}

/-- Behind a register prefix keys are awaited and resolve as they do alone. -/
theorem Completes.behind (h : m.Completes keys r) {name : String}
    (hname : isRegisterToken name = true) (hquote : keys.head? ≠ some "\"") :
    m.Completes ("\"" :: name :: keys) (r.behind name) := by
  have hne : keys ≠ [] := by
    rintro rfl
    exact absurd h.resolves (by simp [resolveKeys_nil])
  refine ⟨?_, ?_⟩
  · have hfront : ("\"" :: name :: keys).dropLast = "\"" :: name :: keys.dropLast := by
      rw [List.dropLast_cons_of_ne_nil (List.cons_ne_nil _ _), List.dropLast_cons_of_ne_nil hne]
    rw [hfront]
    intro front hprefix hfrontne
    -- the prefix alone is not complete, and what is behind it is awaited as it is alone
    obtain hnil | ⟨named, rfl, hnamed⟩ := List.prefix_cons_iff.mp hprefix
    · exact absurd hnil hfrontne
    obtain rfl | ⟨behind, rfl, hbehind⟩ := List.prefix_cons_iff.mp hnamed
    · rfl
    cases behind with
    | nil => simp [resolveKeys, splitRegisterKeys, hname]
    | cons first rest =>
      have hhead : (first :: rest).head? ≠ some "\"" := by
        obtain ⟨others, rfl⟩ := hbehind.trans (List.dropLast_prefix keys)
        exact hquote
      rw [resolveKeys_behind hname (List.cons_ne_nil _ _) hhead,
        h.awaits _ hbehind (List.cons_ne_nil _ _)]
      rfl
  · rw [resolveKeys_behind hname hne hquote, h.resolves]
    rfl

theorem Completes.inRegister (h : m.Completes keys r) {register : Option Char}
    (hregister : ∀ name ∈ register, isRegisterName name = true)
    (hquote : keys.head? ≠ some "\"") :
    m.Completes ((registerPrefix register).map KeyPress.token ++ keys)
      (r.inRegister register) := by
  cases register with
  | none => exact h
  | some name =>
    have hname : isRegisterToken (String.singleton name) = true := by
      simpa [isRegisterToken] using hregister name rfl
    have htokens : (registerPrefix (some name)).map KeyPress.token
        = ["\"", String.singleton name] := by
      rw [registerPrefix, List.map_cons, List.map_singleton, KeyPress.token_plain,
        KeyPress.token_plain]
      rfl
    rw [htokens]
    exact h.behind hname hquote

end Keymap

/-! ## 3. Commands that take a count -/

open ModalStack.Action in
/-- The keys of normal mode that are commands by themselves and take a count before them. -/
def keyCommands : List (KeyPress × (Invocation → Reaction)) :=
  [(.plain 'G', gotoTop), (.plain 'Y', yank), (.plain 'S', change),
   (.plain 'j', moveDown), ({ code := .down }, moveDown),
   (.plain 'k', moveUp), ({ code := .up }, moveUp),
   (.plain 'p', paste true), (.plain 'P', paste false), (.plain 's', swap), (.plain 'r', rotate),
   (.plain 'o', openItem false), (.plain 'O', openItem true),
   (.plain 'i', insertMode), (.plain 'a', insertMode),
   (.plain 'v', visualMode), (.plain 'V', visualMode),
   (.plain '/', search .forward), (.plain '?', search .backward),
   (.plain 'n', nextMatch false), (.plain 'N', nextMatch true),
   (.plain ':', commandMode), (.plain '.', dotRepeat)]

open ModalStack.Action in
/-- The operators that are commands when they are typed twice. -/
def doubledCommands : List (Char × (Invocation → Reaction)) :=
  [('d', delete), ('x', delete), ('y', yank), ('c', change)]

/-- The presses are a command of normal mode that takes a count, and this is what it runs. -/
inductive CountedCommand : List KeyPress → (Invocation → Reaction) → Prop
  | key {press : KeyPress} {run : Invocation → Reaction} :
      (press, run) ∈ keyCommands → CountedCommand [press] run
  | doubled {op : Char} {run : Invocation → Reaction} :
      (op, run) ∈ doubledCommands → CountedCommand [.plain op, .plain op] run

theorem keyCommands_bound : ∀ e ∈ keyCommands, ∃ name,
    Keymap.defaultNormal.get? e.1.token = some (.action ⟨name, e.2⟩) := by
  simp only [keyCommands, List.forall_mem_cons, List.not_mem_nil, false_implies, implies_true,
    and_true]
  and_intros
  all_goals exact ⟨_, rfl⟩

theorem keyCommands_minds : ∀ e ∈ keyCommands, Action.MindsCounts e.2 := by
  simp only [keyCommands, List.forall_mem_cons, List.not_mem_nil, false_implies, implies_true,
    and_true]
  refine ⟨Action.gotoTop_mindsCounts, Action.yank_mindsRanges.mindsCounts, ?_⟩
  -- the others do not look at the operand
  and_intros
  all_goals exact fun _ _ => rfl

/-- The keys are commands by themselves, behind digits and register prefixes too. -/
theorem keyCommands_press : ∀ e ∈ keyCommands,
    e.1.Continues ∧ e.1.token ≠ "\"" ∧ Keymap.standsAlone e.1.token.toList = true := by
  decide +kernel

theorem doubledCommands_bound : ∀ e ∈ doubledCommands, ∃ inner name,
    Keymap.defaultNormal.get? (String.singleton e.1) = some (.submap inner) ∧
      KeyTable.get? inner (String.singleton e.1) = some (.action ⟨name, e.2⟩) := by
  simp only [doubledCommands, List.forall_mem_cons, List.not_mem_nil, false_implies, implies_true,
    and_true]
  and_intros
  all_goals exact ⟨_, _, rfl, rfl⟩

theorem doubledCommands_minds : ∀ e ∈ doubledCommands, Action.MindsRanges e.2 := by
  simp only [doubledCommands, List.forall_mem_cons, List.not_mem_nil, false_implies, implies_true,
    and_true]
  exact ⟨Action.delete_mindsRanges, Action.delete_mindsRanges, Action.yank_mindsRanges,
    fun _ _ => rfl⟩

theorem doubledCommands_press : ∀ e ∈ doubledCommands,
    (KeyPress.plain e.1).Continues ∧ e.1.isAlpha = true ∧
      Keymap.standsAlone [e.1, e.1] = true := by
  decide +kernel

namespace CountedCommand

variable {presses : List KeyPress} {run : Invocation → Reaction} {ds : List Char}

theorem continues (h : CountedCommand presses run) : ∀ press ∈ presses, press.Continues := by
  intro press hpress
  cases h with
  | key hmem =>
    rw [List.mem_singleton.mp hpress]
    exact (keyCommands_press _ hmem).1
  | @doubled op _ hmem =>
    have heq : press = .plain op := by simpa using hpress
    rw [heq]
    exact (doubledCommands_press _ hmem).1

theorem mindsCounts (h : CountedCommand presses run) : Action.MindsCounts run := by
  cases h with
  | key hmem => exact keyCommands_minds _ hmem
  | doubled hmem => exact (doubledCommands_minds _ hmem).mindsCounts

/-- **Behind any digits the command is read**, with what the digits come to. -/
theorem completes (h : CountedCommand presses run) (hds : ds.all Char.isDigit = true) :
    ∃ r, Keymap.defaultNormal.Completes (ds.map String.singleton ++ presses.map KeyPress.token) r ∧
      r.Counts ds (presses.map KeyPress.token) none run := by
  cases h with
  | key hmem =>
    obtain ⟨name, hb⟩ := keyCommands_bound _ hmem
    exact Keymap.completes_key hds (keyCommands_press _ hmem).2.2 hb
  | doubled hmem =>
    obtain ⟨inner, name, hb, ha⟩ := doubledCommands_bound _ hmem
    obtain ⟨-, halpha, halone⟩ := doubledCommands_press _ hmem
    rw [List.map_cons, List.map_singleton, KeyPress.token_plain]
    exact Keymap.completes_doubled hds halpha halone hb ha

theorem bound (h : CountedCommand presses run) : Bound .normal run := by
  have hds : ([] : List Char).all Char.isDigit = true := rfl
  obtain ⟨r, hcompletes, hcounts⟩ := h.completes hds
  have hb : Bound .normal r.action.run := Keymap.defaultNormal_all.resolveKeys hcompletes.resolves
  rwa [hcounts.run] at hb

theorem head?_ne (h : CountedCommand presses run) (hds : ds.all Char.isDigit = true) :
    (ds.map String.singleton ++ presses.map KeyPress.token).head? ≠ some "\"" := by
  refine Text.head?_run_append_ne (Keymap.all_isDigitToken hds) (by decide) fun heq => ?_
  cases h with
  | key hmem => exact (keyCommands_press _ hmem).2.1 (Option.some.inj heq)
  | @doubled op _ hmem =>
    have hop : (KeyPress.plain op).token = "\"" := Option.some.inj heq
    rw [KeyPress.token_plain] at hop
    obtain rfl : op = '"' := String.singleton_inj.mp hop
    have halpha : ('"' : Char).isAlpha = true := (doubledCommands_press _ hmem).2.1
    exact absurd halpha (by decide)

end CountedCommand

/-- The commands that can be typed in two ways. -/
def synonyms : List (List KeyPress × List KeyPress) :=
  [([.plain 'Y'], [.plain 'y', .plain 'y']), ([.plain 'S'], [.plain 'c', .plain 'c']),
   ([.plain 'x', .plain 'x'], [.plain 'd', .plain 'd']),
   ([.plain 'j'], [{ code := .down }]), ([.plain 'k'], [{ code := .up }])]

theorem synonyms_counted : ∀ e ∈ synonyms, ∃ run,
    CountedCommand e.1 run ∧ CountedCommand e.2 run ∧ Action.MindsRanges run := by
  simp only [synonyms, List.forall_mem_cons, List.not_mem_nil, false_implies, implies_true,
    and_true]
  refine ⟨⟨Action.yank, ?_, ?_, Action.yank_mindsRanges⟩, ⟨Action.change, ?_, ?_, fun _ _ => rfl⟩,
    ⟨Action.delete, ?_, ?_, Action.delete_mindsRanges⟩, ⟨Action.moveDown, ?_, ?_, fun _ _ => rfl⟩,
    ⟨Action.moveUp, ?_, ?_, fun _ _ => rfl⟩⟩
  · exact .key (List.mem_of_getElem? (i := 1) rfl)
  · exact .doubled (List.mem_of_getElem? (i := 2) rfl)
  · exact .key (List.mem_of_getElem? (i := 2) rfl)
  · exact .doubled (List.mem_of_getElem? (i := 3) rfl)
  · exact .doubled (List.mem_of_getElem? (i := 1) rfl)
  · exact .doubled (List.mem_of_getElem? (i := 0) rfl)
  · exact .key (List.mem_of_getElem? (i := 3) rfl)
  · exact .key (List.mem_of_getElem? (i := 4) rfl)
  · exact .key (List.mem_of_getElem? (i := 5) rfl)
  · exact .key (List.mem_of_getElem? (i := 6) rfl)

/-- Both ways are repeatable, or neither is. -/
theorem synonyms_repeatable : ∀ e ∈ synonyms,
    Change.isRepeatable (joinTokens (e.1.map KeyPress.token))
      = Change.isRepeatable (joinTokens (e.2.map KeyPress.token)) := by
  decide +kernel

/-! ## 4. Commands in an idle engine -/

/-- Whatever phrase the digits come to, the action sees in it no more than the count. -/
def Action.SeesOnlyCount (run : Invocation → Reaction) (ds : List Char) : Prop :=
  MindsRanges run ∨ MindsCounts run ∧ ∀ n, IsNumeral ds n → 1 ≤ n ∧ n ≤ maxCount

namespace Resolved.Counts

variable {ds : List Char} {keys : List String} {register : Option String}
  {run : Invocation → Reaction} {r : Resolved}

theorem rangeless_invocation (h : r.Counts ds keys register run) (s : State)
    (settings : Settings) : (r.invocation s settings).Rangeless := by
  intro operand hoperand
  obtain ⟨phrase, hphrase, rfl⟩ := Option.map_eq_some_iff.mp hoperand
  exact h.rangeless phrase hphrase

/-- A position that the digits spell is the count, if it is one. -/
theorem countSays (h : r.Counts ds keys register run)
    (hds : ∀ n, IsNumeral ds n → 1 ≤ n ∧ n ≤ maxCount) (s : State) (settings : Settings) :
    (r.invocation s settings).CountSays := by
  refine ⟨h.rangeless_invocation s settings, ?_⟩
  intro n hoperand
  obtain ⟨phrase, hphrase, hposition⟩ := Option.map_eq_some_iff.mp hoperand
  have hn : IsNumeral ds n := h.position phrase n hphrase hposition
  obtain ⟨hn₁, hn₂⟩ := hds n hn
  refine ⟨?_, hn₂⟩
  simp [invocation, h.count, count?_eq_readCount hn hn₁, readCount, hn₂]

/-- The action runs as it does without the operand. -/
theorem reaction_eq (h : r.Counts ds keys register run) (hrun : Action.SeesOnlyCount run ds)
    (s : State) (settings : Settings) :
    r.reaction s settings = run (r.invocation s settings).bare := by
  rw [reaction, h.run]
  rcases hrun with hminds | ⟨hminds, hds⟩
  · exact hminds _ (h.rangeless_invocation s settings)
  · exact hminds _ (h.countSays hds s settings)

end Resolved.Counts

namespace Engine.Idle

variable {η : Type} {e e' : Engine η} {X Y : List KeyPress} {run : Invocation → Reaction}
  {ds ds' : List Char} {register : Option Char} {n : Nat}

/-- **A command is pressed**, behind digits and a register prefix: it runs. -/
theorem run_command (h : e.Idle) (hX : CountedCommand X run) (hds : ds.all Char.isDigit = true)
    (hregister : ∀ name ∈ register, isRegisterName name = true) :
    ∃ ts, ∃ r : Resolved,
      r.Counts ds (X.map KeyPress.token) (register.map String.singleton) run ∧
      (e.run (pressing (registerPrefix register ++ (ds.map .plain ++ X)))).state
        = ((e.state.holdingKeys ts).execute e.settings r).1 ∧
      e.asked (pressing (registerPrefix register ++ (ds.map .plain ++ X)))
        = ((e.state.holdingKeys ts).execute e.settings r).2.toList := by
  obtain ⟨r, hcompletes, hcounts⟩ := hX.completes hds
  have hpresses : ∀ press ∈ registerPrefix register ++ (ds.map .plain ++ X), press.Continues := by
    intro press hpress
    rcases List.mem_append.mp hpress with hpress | hpress
    · exact registerPrefix_continues hregister press hpress
    rcases List.mem_append.mp hpress with hpress | hpress
    · obtain ⟨d, hd, rfl⟩ := List.mem_map.mp hpress
      exact (isPlain_of_isDigit (List.all_eq_true.mp hds d hd)).continues
    · exact hX.continues press hpress
  have hprefixed := hcompletes.inRegister hregister (hX.head?_ne hds)
  rw [← KeyPress.map_token_plain, ← List.map_append, ← List.map_append] at hprefixed
  exact ⟨_, _, hcounts.inRegister register, h.run_completed hpresses hprefixed⟩

/-- **Two spellings of one function**, on states that differ only in what is typed. -/
theorem spellings_agree (h : e.Idle) (h' : e'.Idle) (hX : CountedCommand X run)
    (hY : CountedCommand Y run) (hds : ds.all Char.isDigit = true)
    (hds' : ds'.all Char.isDigit = true) (hrun : Action.SeesOnlyCount run ds)
    (hrun' : Action.SeesOnlyCount run ds')
    (hregister : ∀ name ∈ register, isRegisterName name = true)
    (hsettings : e.settings = e'.settings) (hstate : e.state.untyped = e'.state.untyped)
    (hcount : (count? ds).or e.state.pendingCount = (count? ds').or e'.state.pendingCount)
    (hrepeatable : Change.isRepeatable (joinTokens (X.map KeyPress.token))
      = Change.isRepeatable (joinTokens (Y.map KeyPress.token))) :
    e.asked (pressing (registerPrefix register ++ (ds.map .plain ++ X)))
        = e'.asked (pressing (registerPrefix register ++ (ds'.map .plain ++ Y))) ∧
      (e.run (pressing (registerPrefix register ++ (ds.map .plain ++ X)))).state.upToText
        = (e'.run
            (pressing (registerPrefix register ++ (ds'.map .plain ++ Y)))).state.upToText := by
  obtain ⟨ts, r, hr, hstate₁, hasked₁⟩ := h.run_command hX hds hregister
  obtain ⟨ts', r', hr', hstate₂, hasked₂⟩ := h'.run_command hY hds' hregister
  rw [← hsettings] at hstate₂ hasked₂
  have hholding : (e.state.holdingKeys ts).untyped = (e'.state.holdingKeys ts').untyped := hstate
  have hcounts : r.count.or (e.state.holdingKeys ts).pendingCount
      = r'.count.or (e'.state.holdingKeys ts').pendingCount := by
    rw [hr.count, hr'.count]
    exact hcount
  have hrepeatables : Change.isRepeatable r.body = Change.isRepeatable r'.body := by
    rw [hr.repeatable, hr'.repeatable, hrepeatable]
  obtain ⟨hcommand, hafter⟩ := State.execute_alike hX.bound hholding (hr.reaction_eq hrun _ _)
    (hr'.reaction_eq hrun' _ _) hcounts (hr.register.trans hr'.register.symm) hrepeatables
  rw [hstate₁, hstate₂, hasked₁, hasked₂, hcommand]
  exact ⟨rfl, hafter⟩

/-- **A count that is set and the same count typed are interchangeable.**  In an idle engine, on
any state, a command is typed that takes a count, perhaps behind a register prefix.  If a count
from 1 to `maxCount` was set before, or if no count was set and the number is typed behind the
prefix, the host is asked for the same, and the states that are left are the same but for the
text of the command. -/
theorem count_set_or_typed (h : e.Idle) (hX : CountedCommand X run) (hds : IsNumeral ds n)
    (hn₁ : 1 ≤ n) (hn₂ : n ≤ maxCount)
    (hregister : ∀ name ∈ register, isRegisterName name = true) :
    (e.setPendingCount (some n)).asked (pressing (registerPrefix register ++ X))
        = (e.setPendingCount none).asked
            (pressing (registerPrefix register ++ (ds.map .plain ++ X))) ∧
      ((e.setPendingCount (some n)).run
          (pressing (registerPrefix register ++ X))).state.upToText
        = ((e.setPendingCount none).run
            (pressing (registerPrefix register ++ (ds.map .plain ++ X)))).state.upToText := by
  have hset : (e.setPendingCount (some n)).Idle := ⟨h.keymaps, h.mode, h.buffer, h.keys⟩
  have htyped : (e.setPendingCount none).Idle := ⟨h.keymaps, h.mode, h.buffer, h.keys⟩
  have hsees : Action.SeesOnlyCount run [] :=
    .inr ⟨hX.mindsCounts, fun k hk => absurd rfl hk.ne_nil⟩
  have hsees' : Action.SeesOnlyCount run ds := by
    refine .inr ⟨hX.mindsCounts, fun k hk => ?_⟩
    rw [← hk.value_eq, hds.value_eq]
    exact ⟨hn₁, hn₂⟩
  have hcount : (count? []).or (e.setPendingCount (some n)).state.pendingCount
      = (count? ds).or (e.setPendingCount none).state.pendingCount := by
    rw [count?_eq_readCount hds hn₁, readCount, if_pos hn₂]
    simp [setPendingCount, count?, read?, Nat.lt_of_succ_le hn₁]
  exact hset.spellings_agree htyped hX hX rfl hds.digits hsees hsees' hregister rfl rfl hcount rfl

/-- Three items are deleted into register `a`. -/
theorem count_set_or_typed_deletion :
    let e : Engine Unit := (Setup.start { depth := 12 }).run (typing ['4', 'j'])
    let X : List KeyPress := [.plain 'd', .plain 'd']
    let ds : List Char := ['0', '3']
    (e.Idle ∧ CountedCommand X Action.delete ∧ IsNumeral ds 3 ∧ 3 ≤ maxCount ∧
        ∀ name ∈ some 'a', isRegisterName name = true) ∧
      (e.setPendingCount (some 3)).asked (pressing (registerPrefix (some 'a') ++ X))
        = (e.setPendingCount none).asked
            (pressing (registerPrefix (some 'a') ++ (ds.map .plain ++ X))) ∧
      ((e.setPendingCount (some 3)).run
          (pressing (registerPrefix (some 'a') ++ X))).state.upToText
        = ((e.setPendingCount none).run
            (pressing (registerPrefix (some 'a') ++ (ds.map .plain ++ X)))).state.upToText := by
  intro e X ds
  have hmode : e.state.mode = .normal := by decide +kernel
  have hbuffer : e.state.buffer = "" := by decide +kernel
  have h : e.Idle := Reachable.idle rfl (Reachable.start.run _) hmode hbuffer
  have hX : CountedCommand X Action.delete := .doubled (List.mem_of_getElem? (i := 0) rfl)
  have hds : IsNumeral ds 3 := ⟨by decide, by decide, by decide⟩
  have hn : 3 ≤ maxCount := by decide
  have hregister : ∀ name ∈ some 'a', isRegisterName name = true := by
    intro name hname
    obtain rfl := Option.some.inj hname
    decide
  exact ⟨⟨h, hX, hds, hn, hregister⟩, h.count_set_or_typed hX hds (by decide) hn hregister⟩

/-- **Synonyms agree for every spelling of a count.**  In an idle engine, on any state and with
any count set before, one of the commands is typed that can be typed in two ways, perhaps behind
a register prefix, and behind any digits, of any number and value: the host is asked for the same
in both ways, and the states that are left are the same but for the text of the command. -/
theorem synonyms_agree (h : e.Idle) (hXY : (X, Y) ∈ synonyms) (hds : ds.all Char.isDigit = true)
    (hregister : ∀ name ∈ register, isRegisterName name = true) :
    e.asked (pressing (registerPrefix register ++ (ds.map .plain ++ X)))
        = e.asked (pressing (registerPrefix register ++ (ds.map .plain ++ Y))) ∧
      (e.run (pressing (registerPrefix register ++ (ds.map .plain ++ X)))).state.upToText
        = (e.run (pressing (registerPrefix register ++ (ds.map .plain ++ Y)))).state.upToText := by
  obtain ⟨run, hX, hY, hminds⟩ := synonyms_counted (X, Y) hXY
  have hrepeatable : Change.isRepeatable (joinTokens (X.map KeyPress.token))
      = Change.isRepeatable (joinTokens (Y.map KeyPress.token)) := synonyms_repeatable (X, Y) hXY
  have hcount : (count? ds).or e.state.pendingCount = (count? ds).or e.state.pendingCount := rfl
  exact h.spellings_agree h hX hY hds hds (.inl hminds) (.inl hminds) hregister rfl rfl hcount
    hrepeatable

/-- A number of 33 bits is no count, before `Y` and before `yy`. -/
theorem synonyms_agree_past_counts :
    let e : Engine Unit := (Setup.start { depth := 12 }).run (typing ['4', 'j'])
    let X : List KeyPress := [.plain 'Y']
    let Y : List KeyPress := [.plain 'y', .plain 'y']
    let ds : List Char := "4294967296".toList
    (e.Idle ∧ (X, Y) ∈ synonyms ∧ ds.all Char.isDigit = true ∧
        ∀ name ∈ some '"', isRegisterName name = true) ∧
      e.asked (pressing (registerPrefix (some '"') ++ (ds.map .plain ++ X)))
        = e.asked (pressing (registerPrefix (some '"') ++ (ds.map .plain ++ Y))) ∧
      (e.run (pressing (registerPrefix (some '"') ++ (ds.map .plain ++ X)))).state.upToText
        = (e.run
            (pressing (registerPrefix (some '"') ++ (ds.map .plain ++ Y)))).state.upToText := by
  intro e X Y ds
  have hmode : e.state.mode = .normal := by decide +kernel
  have hbuffer : e.state.buffer = "" := by decide +kernel
  have h : e.Idle := Reachable.idle rfl (Reachable.start.run _) hmode hbuffer
  have hXY : (X, Y) ∈ synonyms := List.mem_of_getElem? (i := 0) rfl
  have hds : ds.all Char.isDigit = true := by decide
  have hregister : ∀ name ∈ some '"', isRegisterName name = true := by
    intro name hname
    obtain rfl := Option.some.inj hname
    decide
  exact ⟨⟨h, hXY, hds, hregister⟩, h.synonyms_agree hXY hds hregister⟩

end Engine.Idle

end ModalStack
