/-
# The count that was typed

The count of a command is found in one of two ways.  A phrase carries its number as an operand, of
64 bits or of 32, and the number is taken for a count if the text begins with a digit.  Where there
is no phrase, the keys that are single digits are cut off the front of the text, and read again as a
number of 32 bits.  The two agree: the count is the number that the digits at the beginning spell,
if it is one from 1 to 2 ^ 32 - 1, and only a range has none (`Keymap.count_typed`).

* Digits of the text and digits among the keys are the same run, since no key but a digit has a
  token that begins with one (`leadingDigits_joinTokens`).
* A phrase that begins with digits, but is no range, has just one number
  (`Phrase.Spells.phraseCount_eq`).
-/
import ModalStack.Proofs.CommandForms
import ModalStack.Proofs.TypedNumbers
import ModalStack.Text.Bytes

namespace ModalStack

open Numeral

/-! ## 1. Digits at the beginning -/

/-- **A token that begins with a digit is that digit.** -/
theorem IsToken.isDigitToken {t : String} (h : IsToken t) {d : Char} {more : List Char}
    (ht : t.toList = d :: more) (hd : d.isDigit = true) : isDigitToken t = true := by
  have hplain : d ∉ '<' :: '-' :: markLetters := by
    intro hmem
    have hnone : ('<' :: '-' :: markLetters).all (fun c => !c.isDigit) = true := by decide
    exact absurd hd (by simpa using List.all_eq_true.mp hnone d hmem)
  rw [h.tail_eq_nil ht hplain] at ht
  exact isDigitToken_iff.mpr ⟨d, ht, hd⟩

/-- **The digits of a text are the digits among its keys.** -/
theorem leadingDigits_joinTokens {keys : List String} (hk : ∀ t ∈ keys, IsToken t) :
    leadingDigits (joinTokens keys).toList = (joinTokens (keys.takeWhile isDigitToken)).toList := by
  have hrest : leadingDigits (joinTokens (keys.dropWhile isDigitToken)).toList = [] := by
    cases hdrop : keys.dropWhile isDigitToken with
    | nil => rfl
    | cons t ts =>
      have htoken : IsToken t := by
        refine hk t ((List.dropWhile_sublist isDigitToken).mem ?_)
        rw [hdrop]
        exact List.mem_cons_self
      have hkey : isDigitToken t = false := by
        have hhead := List.head?_dropWhile_not isDigitToken keys
        rwa [hdrop] at hhead
      obtain ⟨c, more, hc⟩ := List.exists_cons_of_ne_nil htoken.toList_ne_nil
      rw [joinTokens_cons, hc, List.cons_append]
      refine leadingDigits_of_not_digit ?_
      rw [← Bool.not_eq_true]
      exact fun hd => absurd (htoken.isDigitToken hc hd) (by simp [hkey])
  rw [joinTokens_digits]
  exact (Text.run_append (all_isDigit_takeWhile keys) hrest).1

/-- Each digit is one byte, so as many bytes are cut off the text as there are digits. -/
theorem cut?_digits (keys : List String) :
    Text.cut? (joinTokens keys).toList (keys.takeWhile isDigitToken).length
      = .ok ((joinTokens (keys.takeWhile isDigitToken)).toList,
          (joinTokens (keys.dropWhile isDigitToken)).toList) := by
  have hsize : ∀ digits : List String, (∀ t ∈ digits, isDigitToken t = true) →
      Text.byteSize (joinTokens digits).toList = digits.length := by
    intro digits hdigits
    induction digits with
    | nil => rfl
    | cons t digits ih =>
      obtain ⟨ht, hdigits⟩ := List.forall_mem_cons.mp hdigits
      obtain ⟨d, htoken, hd⟩ := isDigitToken_iff.mp ht
      have hone : d.utf8Size = 1 :=
        Text.utf8Size_of_isAscii (Text.isAscii_of_isAlphanum (by simp [Char.isAlphanum, hd]))
      rw [joinTokens_cons, Text.byteSize_append, htoken, ih hdigits]
      simp [hone, Nat.add_comm]
  rw [joinTokens_digits, ← hsize _ (List.all_eq_true.mp List.all_takeWhile)]
  exact Text.cut?_append _ _

/-! ## 2. The count of a phrase -/

/-- Digits are a count if their value is one. -/
theorem Numeral.count?_eq {ds : List Char} (h : ds.all Char.isDigit = true) :
    count? ds = if 1 ≤ value ds ∧ value ds ≤ maxCount then some (value ds) else none := by
  cases ds with
  | nil => rfl
  | cons d rest =>
    have hn : IsNumeral (d :: rest) (value (d :: rest)) := ⟨List.cons_ne_nil d rest, h, rfl⟩
    rw [hn.count?_eq, Operand.numeric]
    by_cases hle : value (d :: rest) ≤ maxCount
    · simp [hle, Option.filter, Nat.lt_iff_add_one_le]
    · simp [hle]

namespace Phrase

variable {cs : List Char} {phrase : Phrase}

/-- **The count of a phrase is its leading number**, if it is no range. -/
theorem Spells.phraseCount_eq (h : Spells cs phrase) :
    phraseCount (String.ofList cs) phrase
      = if phrase.operand.isRange then none else count? (leadingDigits cs) := by
  have hunnumbered : ∀ {c : Char} {more : List Char} {phrase : Phrase}, c.isDigit = false →
      phraseCount (String.ofList (c :: more)) phrase = count? (leadingDigits (c :: more)) := by
    intro c more phrase hc
    rw [phraseCount, beginsWithDigit_ofList, hc, leadingDigits_of_not_digit hc]
    rfl
  cases h with
  | bottom => exact hunnumbered (by decide)
  | named _ _ => exact hunnumbered (by decide)
  | @position ds n hn _ =>
    rw [phraseCount, beginsWithDigit_numeral hn, if_pos rfl, (hn.append (by decide) []).1,
      hn.count?_eq]
    rfl
  | @counted ds n op hn hle hop =>
    rw [phraseCount, beginsWithDigit_numeral hn, if_pos rfl,
      (hn.append (isDigit_of_mem_countOperators hop) []).1, hn.count?_eq, Operand.numeric,
      Operand.numeric, if_pos hle]
    rfl
  | @placed ds n op hn _ hop _ =>
    rw [phraseCount, beginsWithDigit_numeral hn, if_pos rfl,
      (hn.append (isDigit_eq_false_of_isAlpha hop) []).1, hn.count?_eq]
    rfl
  | @bare op operand hown =>
    rw [(ownOperand_plain hown).1]
    exact hunnumbered (isDigit_eq_false_of_isAlpha (isAlpha_of_mem_ownOperands hown))
  | range _ _ _ _ _ =>
    rw [phraseCount]
    split
    · rfl
    · rfl
  | @span ds n op hop _ _ => exact hunnumbered (isDigit_of_mem_spanOperators hop)

end Phrase

/-! ## 3. The count of a command -/

/-- The command was given as a range. -/
def Resolved.isRanged (r : Resolved) : Bool := r.phrase.any fun phrase => phrase.operand.isRange

namespace Keymap

variable {m : Keymap} {keys body : List String} {raw : String} {register : Option String}
  {r : Resolved}

/-- The keys before the first that is no digit, of those behind a register prefix. -/
def digitKeys (keys : List String) : List String := (typedBody keys).takeWhile isDigitToken

theorem typedBody_of_split (h : splitRegisterKeys keys = .split register body) :
    typedBody keys = body := by
  rw [typedBody, h]

/-- **Both ways lead to the same count**, a range apart. -/
theorem count_resolveBody (hk : ∀ t ∈ body, IsToken t)
    (h : m.resolveBody raw register body = .resolved r) :
    r.count = if r.isRanged then none
      else count? (joinTokens (body.takeWhile isDigitToken)).toList := by
  simp only [resolveBody] at h
  split at h
  · rename_i phrase a hphrase
    obtain rfl := Resolution.resolved.inj h
    obtain ⟨phrase', hparse, hmap⟩ := Option.bind_eq_some_iff.mp hphrase
    obtain ⟨a', -, hpair⟩ := Option.map_eq_some_iff.mp hmap
    obtain ⟨rfl, rfl⟩ := Prod.mk.inj hpair
    have hcount := (Phrase.parse_eq_some_iff.mp hparse).phraseCount_eq
    rw [String.ofList_toList, leadingDigits_joinTokens hk] at hcount
    exact hcount
  · split at h
    · exact absurd h (by simp)
    · split at h
      · obtain rfl := Resolution.resolved.inj h
        rfl
      · exact absurd h (by simp)
      · exact absurd h (by simp)

/-- **The count of a command is the one that was typed**, in every keymap, and whether the command
was found as a phrase or by a walk.  Of the keys behind the register prefix take the digits before
the first other key.  In the text they are cut off at an offset between two characters, as many
bytes as there are digits, and the count is their decimal value if that is from 1 to 2 ^ 32 - 1, and
none otherwise.  Only a command that is given as a range has no count whatever its digits are. -/
theorem count_typed (hk : ∀ t ∈ keys, IsToken t) (h : m.resolveKeys keys = .resolved r) :
    let digits := (joinTokens (digitKeys keys)).toList
    Text.cut? r.body.toList (digitKeys keys).length
        = .ok (digits, (joinTokens ((typedBody keys).dropWhile isDigitToken)).toList) ∧
      (r.isRanged = false →
        r.count = if 1 ≤ value digits ∧ value digits ≤ maxCount then some (value digits)
          else none) ∧
      (r.isRanged = true → r.count = none) := by
  intro digits
  obtain ⟨body, hsplit, hresolve, -, hbody⟩ := exists_of_resolveKeys h
  have hcount :=
    count_resolveBody (fun t ht => hk t ((CommandKeys.of_split hsplit).mem ht)) hresolve
  have htyped : typedBody keys = body := typedBody_of_split hsplit
  have hdigits : digits = (joinTokens (body.takeWhile isDigitToken)).toList := by
    rw [← htyped]
    rfl
  refine ⟨?_, ?_, ?_⟩
  · rw [hbody, hdigits, digitKeys, htyped]
    exact cut?_digits body
  · intro hrange
    rw [hcount, hrange, hdigits]
    exact count?_eq (all_isDigit_takeWhile body)
  · intro hrange
    rw [hcount, hrange]
    rfl

/-- The same count before two keys for one action, one found as a phrase and one by a walk, with a
leading zero and behind a register; and none with a range that begins with the same digits. -/
theorem count_typed_both_ways :
    let prefixed : List String := ["\"", "a", "0", "4", "2"]
    let down : Action := ⟨"move_down", Action.moveDown⟩
    let found : Resolved :=
      ⟨down, "\"a042j", "042j", some ⟨"j", .position 42⟩, some 42, some "a"⟩
    let walked : Resolved := ⟨down, "\"a042<Down>", "042<Down>", none, some 42, some "a"⟩
    let ranged : Resolved :=
      ⟨⟨"delete", Action.delete⟩, "\"a042,7d", "042,7d", some ⟨"d", .range 42 7⟩, none, some "a"⟩
    ((∀ t ∈ prefixed ++ ["j", "<Down>", ",", "7", "d"], IsToken t) ∧
        (defaultNormal.resolveKeys (prefixed ++ ["j"]) = .resolved found ∧
          found.isRanged = false) ∧
        (defaultNormal.resolveKeys (prefixed ++ ["<Down>"]) = .resolved walked ∧
          walked.isRanged = false) ∧
        defaultNormal.resolveKeys (prefixed ++ [",", "7", "d"]) = .resolved ranged ∧
          ranged.isRanged = true) ∧
      found.count = some 42 ∧ walked.count = some 42 ∧
      Text.cut? walked.body.toList 3 = .ok (['0', '4', '2'], "<Down>".toList) ∧
      ranged.count = none := by
  intro prefixed down found walked ranged
  have hk : ∀ t ∈ prefixed ++ ["j", "<Down>", ",", "7", "d"], IsToken t := by
    have hchars : ∀ t ∈ ['"', 'a', '0', '4', '2', 'j', ',', '7', 'd'].map String.singleton,
        IsToken t := by
      intro t ht
      obtain ⟨c, -, rfl⟩ := List.mem_map.mp ht
      exact isToken_singleton c
    intro t ht
    by_cases hdown : t = "<Down>"
    · exact ⟨{ code := .down }, by rw [hdown]; decide⟩
    · refine hchars t ?_
      revert hdown t
      decide
  have hmem : ∀ {more : List String}, more ⊆ ["j", "<Down>", ",", "7", "d"] →
      ∀ t ∈ prefixed ++ more, IsToken t :=
    fun hsub t ht => hk t ((List.mem_append.mp ht).elim (List.mem_append_left _)
      fun hmore => List.mem_append_right _ (hsub hmore))
  have hfound : defaultNormal.resolveKeys (prefixed ++ ["j"]) = .resolved found := rfl
  have hwalked : defaultNormal.resolveKeys (prefixed ++ ["<Down>"]) = .resolved walked := rfl
  have hranged : defaultNormal.resolveKeys (prefixed ++ [",", "7", "d"]) = .resolved ranged := rfl
  obtain ⟨-, hcount, -⟩ := count_typed (hmem (by decide)) hfound
  obtain ⟨hcut, hcount', -⟩ := count_typed (hmem (by decide)) hwalked
  obtain ⟨-, -, hnone⟩ := count_typed (hmem (by decide)) hranged
  have hlength : (digitKeys (prefixed ++ ["<Down>"])).length = 3 := by decide +kernel
  have hdigits : (joinTokens (digitKeys (prefixed ++ ["<Down>"]))).toList = ['0', '4', '2'] := by
    decide +kernel
  have hrest : (joinTokens ((typedBody (prefixed ++ ["<Down>"])).dropWhile isDigitToken)).toList
      = "<Down>".toList := by
    decide +kernel
  rw [hlength, hdigits, hrest] at hcut
  exact ⟨⟨hk, ⟨hfound, rfl⟩, ⟨hwalked, rfl⟩, hranged, rfl⟩, (hcount rfl).trans (by decide +kernel),
    (hcount' rfl).trans (by decide +kernel), hcut, hnone rfl⟩

end Keymap

end ModalStack
