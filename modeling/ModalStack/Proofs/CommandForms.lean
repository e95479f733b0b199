/-
# The forms of commands

Keys resolve in two ways, as a phrase and by a walk through the keymap, and phrases have seven
forms.  From the outside fewer can be told apart.  A command is a key behind digits, perhaps none;
or a key that waits for itself, typed twice behind digits; or a key behind a range; or an operator
with a target; or a name (`Keymap.Form`).  There are no others in a keymap whose keys wait for
themselves at most (`Keymap.exists_form`), and the default keymaps are of this sort.

So the text of a command says by itself which key was meant and which count goes with it, whichever
way it was resolved (`Keymap.Form.count_eq`).
-/
import ModalStack.Proofs.AtomicSteps
import ModalStack.Proofs.CountedKeys

namespace ModalStack

open Numeral

/-! ## 1. Keys of a command -/

/-- The keys that are typed for a command are its body, perhaps behind a register prefix. -/
inductive CommandKeys : List String → Option String → List String → Prop
  | unnamed {body : List String} : body.head? ≠ some "\"" → CommandKeys body none body
  | named {name : String} {body : List String} : isRegisterToken name = true → body ≠ [] →
      CommandKeys ("\"" :: name :: body) (some name) body

theorem CommandKeys.of_split {keys body : List String} {register : Option String}
    (h : splitRegisterKeys keys = .split register body) : CommandKeys keys register body := by
  rcases splitRegisterKeys_eq_split h with ⟨rfl, rfl, hquote⟩ | ⟨name, rfl, hname, hne, rfl⟩
  · exact .unnamed hquote
  · exact .named hname hne

/-- The body is the end of the keys. -/
theorem CommandKeys.mem {keys body : List String} {register : Option String}
    (h : CommandKeys keys register body) {t : String} (ht : t ∈ body) : t ∈ keys := by
  cases h with
  | unnamed _ => exact ht
  | named _ _ => exact List.mem_cons_of_mem _ (List.mem_cons_of_mem _ ht)

/-- The count that is typed with a command: the number it begins with, unless that is one end of
a range. -/
def typedCount (cs : List Char) : Option Nat :=
  match afterDigits cs with
  | ',' :: _ => none
  | _ => count? (leadingDigits cs)

/-- A numeral ends before the text: it begins with neither a digit of any script nor a comma. -/
def endsNumeral : List Char → Bool
  | c :: _ => !Text.isDecimal c && c != ','
  | [] => false

theorem exists_of_endsNumeral {cs : List Char} (h : endsNumeral cs = true) :
    ∃ c more, cs = c :: more ∧ Text.isDecimal c = false ∧ c ≠ ',' := by
  cases cs with
  | nil => exact absurd h (by simp [endsNumeral])
  | cons c more =>
    simp only [endsNumeral, Bool.and_eq_true, Bool.not_eq_true', bne_iff_ne] at h
    exact ⟨c, more, rfl, h.1, h.2⟩

theorem endsNumeral_append {cs : List Char} (h : endsNumeral cs = true) (more : List Char) :
    endsNumeral (cs ++ more) = true := by
  obtain ⟨c, rest, rfl, hdecimal, hcomma⟩ := exists_of_endsNumeral h
  simpa [endsNumeral] using ⟨hdecimal, hcomma⟩

/-- Behind digits the count is what they spell. -/
theorem typedCount_append {ds cs : List Char} (hds : ds.all Char.isDigit = true)
    (hcs : endsNumeral cs = true) : typedCount (ds ++ cs) = count? ds := by
  obtain ⟨c, more, rfl, hdecimal, hcomma⟩ := exists_of_endsNumeral hcs
  have hdigit : c.isDigit = false := by
    rw [← Bool.not_eq_true]
    exact fun hd => absurd (Text.isDecimal_of_isDigit hd) (by simp [hdecimal])
  have hnone : leadingDigits (c :: more) = [] := leadingDigits_of_not_digit hdigit
  obtain ⟨hlead, hafter⟩ := Text.run_append hds hnone
  unfold typedCount leadingDigits afterDigits
  rw [hlead, hafter]
  split
  · rename_i heq
    exact absurd (List.cons.inj heq).1 hcomma
  · rfl

/-! ## 2. The forms -/

namespace Keymap

/-- The action under a key, or under the same key typed once more. -/
def actionBehind? (m : Keymap) (key : String) : Option Action :=
  match m.get? key with
  | some (.action a) => some a
  | some (.submap inner) => action? inner key
  | none => none

/-- The text is a command for the action that is behind the key, with this count. -/
inductive Form (m : Keymap) : String → List Char → Option Nat → Action → Prop
  | once {ds : List Char} {key : String} {a : Action} : ds.all Char.isDigit = true →
      IsToken key ∨ key = "gg" → m.get? key = some (.action a) →
      Form m key (ds ++ key.toList) (count? ds) a
  | twice {ds : List Char} {key : String} {inner : Keymap} {a : Action} :
      ds.all Char.isDigit = true → m.get? key = some (.submap inner) →
      action? inner key = some a → Form m key (ds ++ (key.toList ++ key.toList)) (count? ds) a
  | ranged {ds ds' : List Char} {n k : Nat} {op : Char} {a : Action} : IsNumeral ds n →
      IsNumeral ds' k → op.isAlpha = true → m.actionBehind? (String.singleton op) = some a →
      Form m (String.singleton op) (ds ++ ',' :: (ds' ++ [op])) none a
  | aimed {ds : List Char} {n : Nat} {op : Char} {a : Action} : op ∈ Phrase.spanOperators →
      IsNumeral ds n → m.get? (String.ofList [op, 'g']) = some (.action a) →
      Form m (String.ofList [op, 'g']) (op :: (ds ++ ['g'])) none a
  | named {name : List Char} {a : Action} : m.get? "@" = some (.action a) →
      Form m "@" ('@' :: name) none a

variable {m : Keymap} {keys body : List String} {key raw : String} {register : Option String}
  {cs ds : List Char} {op : Char} {count : Option Nat} {phrase : Phrase} {a : Action}
  {r : Resolved}

/-- A phrase is bound under its key.  Without a range it has to be bound there directly. -/
theorem get?_of_actionFor? (h : m.actionFor? phrase = some a) :
    m.actionBehind? phrase.operator = some a ∧
      (phrase.operand.isRange = false → m.get? phrase.operator = some (.action a)) := by
  unfold actionFor? at h
  split at h
  · rename_i b hb
    obtain rfl := Option.some.inj h
    exact ⟨by simp only [actionBehind?, hb], fun _ => hb⟩
  · rename_i inner hb
    split at h
    · rename_i hrange
      exact ⟨by simp only [actionBehind?, hb, h], fun hfalse => absurd hrange (by simp [hfalse])⟩
    · exact absurd h (by simp)
  · exact absurd h (by simp)

theorem get?_of_action? (h : m.action? key = some a) : m.get? key = some (.action a) := by
  unfold action? at h
  split at h
  · rename_i b hb
    rw [hb, Option.some.inj h]
  · exact absurd h (by simp)

/-- What is behind a key is bound there. -/
theorem exists_mem_of_actionBehind? (h : m.actionBehind? key = some a) :
    ∃ b, (key, b) ∈ m.entries := by
  unfold actionBehind? at h
  split at h
  · rename_i b hb
    exact ⟨_, KeyTable.mem_of_get? hb⟩
  · rename_i inner hb
    exact ⟨_, KeyTable.mem_of_get? hb⟩
  · exact absurd h (by simp)

/-- A phrase that is an operator behind digits. -/
theorem form_of_counts (hspells : Phrase.Spells (ds ++ [op]) phrase)
    (hds : ds.all Char.isDigit = true) (hop : op.isDigit = false) (hname : op ≠ '@')
    (hcomma : op ≠ ',') (ha : m.actionFor? phrase = some a) :
    ∃ key, m.Form key (ds ++ [op]) (phraseCount (String.ofList (ds ++ [op])) phrase) a := by
  obtain ⟨-, hcounts⟩ :=
    hspells.behind_digits hds hop hname (by simpa using Ne.symm hcomma) (by simp)
  have hbound := (get?_of_actionFor? ha).2 hcounts.rangeless
  rw [hcounts.operator] at hbound
  have hform := Form.once hds (.inl (isToken_singleton op)) hbound
  rw [String.toList_singleton, ← hcounts.count] at hform
  exact ⟨_, hform⟩

/-- **Every phrase has one of the forms.** -/
theorem exists_form_of_spells (hspells : Phrase.Spells cs phrase)
    (ha : m.actionFor? phrase = some a) :
    ∃ key, m.Form key cs (phraseCount (String.ofList cs) phrase) a := by
  obtain ⟨hbehind, hbound⟩ := get?_of_actionFor? ha
  have hcopy := hspells
  cases hcopy with
  | bottom =>
    have hform : m.Form "gg" ([] ++ "gg".toList) (count? []) a := .once rfl (.inr rfl) (hbound rfl)
    exact ⟨"gg", hform⟩
  | @named name hne hname =>
    have hcount : phraseCount (String.ofList ('@' :: name)) ⟨"@", .named (String.ofList name)⟩
        = none := by
      simp [phraseCount, Operand.numeric]
    rw [hcount]
    exact ⟨"@", .named (hbound rfl)⟩
  | position hn _ => exact form_of_counts hspells hn.digits (by decide) (by decide) (by decide) ha
  | @counted ds n op hn _ hop =>
    have hsign : op ≠ '@' ∧ op ≠ ',' := by
      have hall : Phrase.countOperators.all (fun c => c != '@' && c != ',') = true := by decide
      simpa using List.all_eq_true.mp hall op hop
    exact form_of_counts hspells hn.digits (Phrase.isDigit_of_mem_countOperators hop) hsign.1
      hsign.2 ha
  | placed hn _ hop _ =>
    exact form_of_counts hspells hn.digits (isDigit_eq_false_of_isAlpha hop)
      (ne_of_isAlpha hop (by decide)) (ne_of_isAlpha hop (by decide)) ha
  | @bare op operand hown =>
    have hop : op.isAlpha = true := Phrase.isAlpha_of_mem_ownOperands hown
    have hcounted : Phrase.Spells ([] ++ [op]) ⟨String.singleton op, operand⟩ := hspells
    exact form_of_counts hcounted rfl (isDigit_eq_false_of_isAlpha hop)
      (ne_of_isAlpha hop (by decide)) (ne_of_isAlpha hop (by decide)) ha
  | @range ds ds' n k op hn _ hk _ hop =>
    have hcount : phraseCount (String.ofList (ds ++ ',' :: (ds' ++ [op])))
        ⟨String.singleton op, .range n k⟩ = none := by
      simp [phraseCount, Operand.numeric]
    rw [hcount]
    exact ⟨_, .ranged hn hk hop hbehind⟩
  | @span ds n op hop hn _ =>
    have hcount : phraseCount (String.ofList (op :: (ds ++ ['g'])))
        ⟨String.ofList [op, 'g'], .position n⟩ = none := by
      rw [phraseCount, beginsWithDigit_ofList, Phrase.isDigit_of_mem_spanOperators hop]
      rfl
    rw [hcount]
    exact ⟨_, .aimed hop hn (hbound rfl)⟩

/-- A walk that ends at an action is one key, or one key twice. -/
theorem keys_of_walk_found (hd : ∀ e ∈ m.entries, e.2.isDoubled e.1 = true)
    (h : m.walk keys = .found a) :
    ∃ key, (keys = [key] ∧ m.get? key = some (.action a)) ∨
      ∃ inner, keys = [key, key] ∧ m.get? key = some (.submap inner) ∧
        action? inner key = some a := by
  cases keys with
  | nil => exact absurd h (by simp [Keymap.walk])
  | cons key rest =>
    refine ⟨key, ?_⟩
    rw [Keymap.walk] at h
    split at h
    · exact absurd h (by simp)
    · rename_i b hb
      split at h
      · rename_i hempty
        obtain rfl := Walk.found.inj h
        exact .inl ⟨by rw [List.isEmpty_iff.mp hempty], hb⟩
      · exact absurd h (by simp)
    · rename_i inner hb
      obtain ⟨c, b, rfl, -, hentries⟩ :=
        Binding.exists_of_isDoubled (hd _ (KeyTable.mem_of_get? hb))
      have hinner : inner.get? (String.singleton c) = some (.action b) := by
        simp [KeyTable.get?, hentries]
      cases rest with
      | nil => exact absurd h (by simp)
      | cons t ts =>
        rw [List.isEmpty_cons, if_neg (by simp), Keymap.walk] at h
        split at h
        · exact absurd h (by simp)
        · rename_i b' hb'
          -- the only key that is waited for
          have hmem := KeyTable.mem_of_get? hb'
          rw [hentries] at hmem
          obtain ⟨rfl, -⟩ := Prod.mk.inj (List.mem_singleton.mp hmem)
          split at h
          · rename_i hempty
            obtain rfl := Walk.found.inj h
            refine .inr ⟨inner, by rw [List.isEmpty_iff.mp hempty], hb, ?_⟩
            simp only [Keymap.action?, hb']
          · exact absurd h (by simp)
        · rename_i next hb'
          have hmem := KeyTable.mem_of_get? hb'
          rw [hentries] at hmem
          exact absurd (Prod.mk.inj (List.mem_singleton.mp hmem)).2 (by simp)

/-- **Every command has one of the forms**, in a keymap whose keys wait for themselves at most. -/
theorem exists_form (hd : ∀ e ∈ m.entries, e.2.isDoubled e.1 = true)
    (htokens : ∀ t ∈ body, IsToken t) (h : m.resolveBody raw register body = .resolved r) :
    ∃ key, m.Form key r.body.toList r.count r.action := by
  simp only [resolveBody] at h
  split at h
  · rename_i phrase a hphrase
    obtain rfl := Resolution.resolved.inj h
    obtain ⟨phrase', hparse, hmap⟩ := Option.bind_eq_some_iff.mp hphrase
    obtain ⟨a', ha, hpair⟩ := Option.map_eq_some_iff.mp hmap
    obtain ⟨rfl, rfl⟩ := Prod.mk.inj hpair
    obtain ⟨key, hform⟩ := exists_form_of_spells (Phrase.parse_eq_some_iff.mp hparse) ha
    rw [String.ofList_toList] at hform
    exact ⟨key, hform⟩
  · split at h
    · exact absurd h (by simp)
    · split at h
      · rename_i a hwalk
        obtain rfl := Resolution.resolved.inj h
        have hdigits := all_isDigit_takeWhile body
        have htext := joinTokens_digits body
        obtain ⟨key, ⟨hkeys, hb⟩ | ⟨inner, hkeys, hb, hinner⟩⟩ := keys_of_walk_found hd hwalk
        · have htoken : IsToken key :=
            htokens key ((List.dropWhile_sublist _).mem (by rw [hkeys]; exact List.mem_cons_self))
          refine ⟨key, ?_⟩
          rw [htext, hkeys, toList_joinTokens [key], List.flatMap_singleton]
          exact .once hdigits (.inl htoken) hb
        · refine ⟨key, ?_⟩
          rw [htext, hkeys, toList_joinTokens [key, key], List.flatMap_cons, List.flatMap_singleton]
          exact .twice hdigits hb hinner
      · exact absurd h (by simp)
      · exact absurd h (by simp)

namespace Form

/-- The action of a command is behind its key. -/
theorem behind (h : m.Form key cs count a) : m.actionBehind? key = some a := by
  cases h with
  | once _ _ hb => simp only [actionBehind?, hb]
  | twice _ hb ha => simp only [actionBehind?, hb, ha]
  | ranged _ _ _ ha => exact ha
  | aimed _ _ hb => simp only [actionBehind?, hb]
  | named hb => simp only [actionBehind?, hb]

/-- What holds of every key and the actions behind it holds of a command. -/
theorem of_all {P : String → Action → Prop} (hP : ∀ e ∈ m.entries, e.2.All (P e.1))
    (h : m.Form key cs count a) : P key a := by
  have hbehind := h.behind
  unfold actionBehind? at hbehind
  split at hbehind
  · rename_i b hb
    obtain rfl := Option.some.inj hbehind
    cases hP _ (KeyTable.mem_of_get? hb) with
    | action hb => exact hb
  · rename_i inner hb
    cases hP _ (KeyTable.mem_of_get? hb) with
    | submap hinner => exact All.action? hinner hbehind
  · exact absurd hbehind (by simp)

/-- **The count is the one that is typed.** -/
theorem count_eq (h : m.Form key cs count a)
    (hkeys : ∀ e ∈ m.entries, endsNumeral e.1.toList = true) : count = typedCount cs := by
  cases h with
  | once hds _ hb => exact (typedCount_append hds (hkeys _ (KeyTable.mem_of_get? hb))).symm
  | twice hds hb _ =>
    exact (typedCount_append hds
      (endsNumeral_append (hkeys _ (KeyTable.mem_of_get? hb)) _)).symm
  | @ranged ds ds' n k op a hn _ _ _ =>
    obtain ⟨-, hafter⟩ := hn.append (c := ',') (by decide) (ds' ++ [op])
    simp only [typedCount, hafter]
  | @aimed ds n op a hop _ _ =>
    have hends : endsNumeral (op :: (ds ++ ['g'])) = true := by
      have hall : Phrase.spanOperators.all (fun c => endsNumeral [c]) = true := by decide +kernel
      exact List.all_eq_true.mp hall op hop
    have hcount : typedCount ([] ++ op :: (ds ++ ['g'])) = count? [] := typedCount_append rfl hends
    exact hcount.symm
  | @named name a _ =>
    have hends : endsNumeral ('@' :: name) = true := by
      have hsingle : endsNumeral ['@'] = true := by decide +kernel
      exact hsingle
    have hcount : typedCount ([] ++ '@' :: name) = count? [] := typedCount_append rfl hends
    exact hcount.symm

end Form

end Keymap

/-- **Every command that runs has one of the forms**, in whatever mode. -/
theorem State.Runs.exists_form {s : State} {m : Keymap} {press : KeyPress} {r : Resolved}
    (h : s.Runs m press.token r) (hd : ∀ e ∈ m.entries, e.2.isDoubled e.1 = true)
    (htokens : ∀ t ∈ s.keys, IsToken t) : ∃ key, m.Form key r.body.toList r.count r.action := by
  have htoken : IsToken press.token := ⟨press, rfl⟩
  cases h with
  | together _ _ hr =>
    obtain ⟨body, hsplit, hbody, -, -⟩ := Keymap.exists_of_resolveKeys hr
    refine Keymap.exists_form hd ?_ hbody
    intro t ht
    rcases List.mem_append.mp ((CommandKeys.of_split hsplit).mem ht) with hkey | hlast
    · exact htokens t hkey
    · rw [List.mem_singleton.mp hlast]
      exact htoken
  | @alone a _ ha =>
    have hform : m.Form press.token ([] ++ press.token.toList) (count? []) a :=
      .once rfl (.inl htoken) (Keymap.get?_of_action? ha)
    exact ⟨press.token, hform⟩

end ModalStack
