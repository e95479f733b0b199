/-
# Cutting by bytes

A reader that cuts tokens off by offsets in bytes could go wrong in three ways: look at a byte that
is not there, cut a character in two, or take nothing and never end.  It does none of this, and
finds the tokens that are cut off a list of characters (`tokenize?_eq`).  Two facts carry that.

* A modifier mark is passed over only if something follows it.  So behind the marks there is always
  a character, and the token is not empty (`ReadsAsOne.skipMarks?_eq`).
* A mark is recognised by single bytes, but bytes of ASCII, which no other character begins with.
  So the reader that stands between two characters still does so behind a mark, and whether it
  takes one does not depend on the bytes of other characters (`skipMarks?_of_not_mark`).

What is found is a list of texts of one form (`TokenForm`), and the cuts between them stand at valid
positions of the text (`tokenize_by_offsets`).
-/
import ModalStack.Action.Checked
import ModalStack.Key.Checked
import ModalStack.Proofs.TokenCutting

namespace ModalStack

open Text

/-! ## 1. Marks -/

section

variable {front rest piece : List Char} {c letter : Char}

theorem isAscii_of_mem_markLetters (h : letter ∈ markLetters) : isAscii letter = true := by
  have hall : markLetters.all isAscii = true := by decide
  exact List.all_eq_true.mp hall letter h

/-- The byte that is looked for is that of a letter of a mark. -/
theorem byteAt?_mem_markLetters {b : UInt8}
    (hb : byteAt? (front ++ c :: rest) (byteSize front) = .ok b) :
    (markLetters.map asciiByte).contains b = true ↔ c ∈ markLetters := by
  rw [List.contains_iff_mem, List.mem_map]
  constructor
  · rintro ⟨letter, hletter, rfl⟩
    rwa [(byteAt?_eq_asciiByte_iff (isAscii_of_mem_markLetters hletter)).mp hb]
  · intro hc
    refine ⟨c, hc, ?_⟩
    rw [(byteAt?_eq_asciiByte_iff (isAscii_of_mem_markLetters hc)).mpr rfl] at hb
    exact Except.ok.inj hb

theorem byteAt?_of_isAscii (h : isAscii c = true) (front rest : List Char) :
    byteAt? (front ++ c :: rest) (byteSize front) = .ok (asciiByte c) :=
  (byteAt?_eq_asciiByte_iff h).mpr rfl

theorem byteSize_mark (hletter : letter ∈ markLetters) (front : List Char) :
    byteSize (front ++ [letter]) = byteSize front + 1 ∧
      byteSize (front ++ [letter, '-']) = byteSize front + 2 := by
  have hone : letter.utf8Size = 1 := utf8Size_of_isAscii (isAscii_of_mem_markLetters hletter)
  have hhyphen : '-'.utf8Size = 1 := utf8Size_of_isAscii (by decide)
  simp [byteSize_append, hone, hhyphen]

/-- **A mark is passed over if something follows it.** -/
theorem skipMarks?_of_mark (hletter : letter ∈ markLetters) (hrest : rest ≠ [])
    (front : List Char) :
    skipMarks? (front ++ letter :: '-' :: rest) (byteSize front)
      = skipMarks? (front ++ letter :: '-' :: rest) (byteSize (front ++ [letter, '-'])) := by
  obtain ⟨hone, htwo⟩ := byteSize_mark hletter front
  have hroom : byteSize front + 2 < byteSize (front ++ letter :: '-' :: rest) := by
    have hsplit : front ++ letter :: '-' :: rest = front ++ [letter, '-'] ++ rest := by simp
    have hpos : 0 < byteSize rest := byteSize_pos hrest
    rw [hsplit, byteSize_append, htwo]
    omega
  have hfirst : byteAt? (front ++ letter :: '-' :: rest) (byteSize front)
      = .ok (asciiByte letter) :=
    byteAt?_of_isAscii (isAscii_of_mem_markLetters hletter) front _
  have hsecond : byteAt? (front ++ letter :: '-' :: rest) (byteSize front + 1)
      = .ok (asciiByte '-') := by
    have hat := byteAt?_of_isAscii (c := '-') (by decide) (front ++ [letter]) rest
    rwa [hone, List.append_assoc, List.singleton_append] at hat
  rw [skipMarks?, if_pos hroom, hfirst, ok_bind,
    if_pos ((byteAt?_mem_markLetters hfirst).mpr hletter), hsecond, ok_bind, if_pos rfl, htwo]

/-- **Nothing else is passed over**, whatever its bytes are. -/
theorem skipMarks?_of_not_mark (h : beginsMark c rest = false) :
    skipMarks? (front ++ c :: rest) (byteSize front) = .ok (byteSize front) := by
  rw [skipMarks?]
  split
  · rename_i hroom
    obtain ⟨b, -, hb⟩ := byteAt?_append front c rest
    rw [hb, ok_bind]
    split
    · rename_i hmem
      have hletter : c ∈ markLetters := (byteAt?_mem_markLetters hb).mp hmem
      obtain ⟨hone, htwo⟩ := byteSize_mark hletter front
      have hsplit : front ++ c :: rest = front ++ [c] ++ rest := by simp
      rw [hsplit, byteSize_append, hone] at hroom
      -- there is a second character, and it is no hyphen with something behind it
      obtain ⟨d, more, rfl⟩ : ∃ d more, rest = d :: more := by
        refine List.exists_cons_of_ne_nil ?_
        rintro rfl
        simp at hroom
      obtain ⟨b', -, hb'⟩ := byteAt?_append (front ++ [c]) d more
      rw [hsplit, ← hone, hb', ok_bind]
      split
      · rename_i hhyphen
        rw [hhyphen] at hb'
        obtain rfl : d = '-' := (byteAt?_eq_asciiByte_iff (by decide)).mp hb'
        obtain ⟨e, more, rfl⟩ : ∃ e more', more = e :: more' := by
          refine List.exists_cons_of_ne_nil ?_
          rintro rfl
          have hsize : byteSize ['-'] = 1 := by decide
          omega
        exact absurd (beginsMark_of_letter hletter e more) (by simp [h])
      · rfl
    · rfl
  · rfl

/-! ## 2. Tokens -/

theorem unitSize_of_char (h : c = '<' → '>' ∉ rest) : unitSize (c :: rest) = byteSize [c] := by
  by_cases hc : c = '<'
  · subst hc
    have hnone : offsetOf? '>' ('<' :: rest) = none := if_neg (by simpa using h rfl)
    simp [unitSize, hnone]
  · simp [unitSize, hc]

/-- A group ends with the first bracket that closes it. -/
theorem unitSize_of_group {name : List Char} (h : '>' ∉ name) (rest : List Char) :
    unitSize ('<' :: (name ++ '>' :: rest)) = byteSize ('<' :: (name ++ ['>'])) := by
  have hname : ∀ c ∈ '<' :: name, decide (c ≠ '>') = true := by
    intro c hc
    rw [decide_eq_true_eq]
    rintro rfl
    exact (List.mem_cons.mp hc).elim (absurd · (by decide)) h
  have hrun : ('<' :: name ++ '>' :: rest).takeWhile (· ≠ '>') = '<' :: name := by
    rw [List.takeWhile_append_of_pos hname]
    simp
  have hoffset : offsetOf? '>' ('<' :: (name ++ '>' :: rest)) = some (byteSize ('<' :: name)) := by
    rw [← List.cons_append, offsetOf?, if_pos (by simp), hrun]
  have hclose : byteSize ['>'] = 1 := by decide
  rw [← List.cons_append, ← List.cons_append, byteSize_append, hclose]
  simp only [unitSize, hoffset, List.cons_append, List.head?_cons, if_true, Option.map_some,
    Option.some_or, Option.getD_some]

/-- **A token is marks and a unit behind them**, and the reader stops between the two. -/
theorem ReadsAsOne.skipMarks?_eq (h : ReadsAsOne rest piece) (front : List Char) :
    ∃ marks unit, piece = marks ++ unit ∧
      skipMarks? (front ++ (piece ++ rest)) (byteSize front) = .ok (byteSize (front ++ marks)) ∧
      unitSize (unit ++ rest) = byteSize unit := by
  induction h generalizing front with
  | @char c hmark hgroup =>
    refine ⟨[], [c], rfl, ?_, unitSize_of_char hgroup⟩
    rw [List.append_nil]
    exact skipMarks?_of_not_mark hmark
  | @group name hname =>
    refine ⟨[], '<' :: (name ++ ['>']), rfl, ?_, ?_⟩
    · rw [List.append_nil]
      exact skipMarks?_of_not_mark (beginsMark_of_not_letter (by decide) _)
    · rw [List.cons_append, List.append_assoc]
      exact unitSize_of_group hname rest
  | @marked letter piece hletter hpiece ih =>
    obtain ⟨marks, unit, rfl, hskip, hunit⟩ := ih (front ++ [letter, '-'])
    obtain ⟨c, cs, hcons⟩ := hpiece.exists_cons
    refine ⟨letter :: '-' :: marks, unit, rfl, ?_, hunit⟩
    have hrest : marks ++ unit ++ rest ≠ [] := by
      rw [hcons]
      exact List.cons_ne_nil _ _
    have hmark := skipMarks?_of_mark hletter hrest front
    simp only [List.append_assoc, List.cons_append, List.nil_append] at hmark hskip ⊢
    rw [hmark, hskip]

/-- **One round cuts off one token**, between characters. -/
theorem ReadsAsOne.cutToken?_eq (h : ReadsAsOne rest piece) (front : List Char) :
    cutToken? (front ++ (piece ++ rest)) (byteSize front)
      = .ok (piece, byteSize (front ++ piece)) := by
  obtain ⟨marks, unit, rfl, hskip, hunit⟩ := h.skipMarks?_eq front
  have hcut : cut? (front ++ (marks ++ unit ++ rest)) (byteSize (front ++ marks))
      = .ok (front ++ marks, unit ++ rest) := by
    have happend := cut?_append (front ++ marks) (unit ++ rest)
    simpa only [List.append_assoc] using happend
  have hstop : byteSize (front ++ marks) + byteSize unit = byteSize (front ++ (marks ++ unit)) := by
    rw [← byteSize_append, List.append_assoc]
  have hslice := slice?_append front (marks ++ unit) rest
  rw [List.append_assoc] at hslice
  rw [cutToken?, hskip, ok_bind, hcut, ok_bind]
  dsimp only
  rw [hunit, hstop, hslice]
  rfl

/-- **The rounds end**, with the tokens that are cut off one by one. -/
theorem Separable.cutFrom?_eq {pieces : List (List Char)} (h : Separable pieces)
    (front : List Char) : cutFrom? (front ++ pieces.flatten) (byteSize front) = .ok pieces := by
  induction h generalizing front with
  | nil =>
    rw [cutFrom?, if_neg (by simp)]
    rfl
  | @cons piece pieces hpiece _ ih =>
    have hpos : 0 < byteSize piece := by
      obtain ⟨c, cs, hcons⟩ := hpiece.exists_cons
      exact byteSize_pos (by simp [hcons])
    have hahead : byteSize front < byteSize (front ++ piece) := by
      rw [byteSize_append]
      omega
    have hroom : byteSize front < byteSize (front ++ (piece ++ pieces.flatten)) := by
      rw [byteSize_append, byteSize_append]
      omega
    have hnext := ih (front ++ piece)
    rw [List.append_assoc] at hnext
    rw [List.flatten_cons, cutFrom?, if_pos hroom, hpiece.cutToken?_eq, ok_bind]
    dsimp only
    rw [if_pos hahead, hnext]
    rfl

end

/-! ## 3. The whole text -/

/-- **The reader by offsets finds the tokens**, and does not fail. -/
theorem tokenize?_eq (buffer : String) : tokenize? buffer = .ok (tokenize buffer) := by
  obtain ⟨hseparable, hflat⟩ := separable_cutTokens buffer.toList
  have hcut := hseparable.cutFrom?_eq []
  rw [hflat] at hcut
  have hrun : cutFrom? buffer.toList 0 = .ok (cutTokens .fresh [] buffer.toList) := hcut
  rw [tokenize?, hrun]
  rfl

/-- The form that every token has: a group up to the first bracket that closes it, or else a single
character, either behind any number of modifier marks. -/
inductive TokenForm : List Char → Prop
  | char (c : Char) : TokenForm [c]
  | group {name : List Char} : '>' ∉ name → TokenForm ('<' :: (name ++ ['>']))
  | marked {letter : Char} {piece : List Char} : letter ∈ markLetters → TokenForm piece →
      TokenForm (letter :: '-' :: piece)

theorem ReadsAsOne.tokenForm {rest piece : List Char} (h : ReadsAsOne rest piece) :
    TokenForm piece := by
  induction h with
  | char _ _ => exact .char _
  | group hname => exact .group hname
  | marked hletter _ ih => exact .marked hletter ih

theorem TokenForm.ne_nil {piece : List Char} (h : TokenForm piece) : piece ≠ [] := by
  cases h with
  | char c => exact List.cons_ne_nil c []
  | group _ => exact List.cons_ne_nil _ _
  | marked _ _ => exact List.cons_ne_nil _ _

theorem Separable.tokenForm {pieces : List (List Char)} (h : Separable pieces) :
    ∀ piece ∈ pieces, TokenForm piece := by
  induction h with
  | nil => exact fun _ hmem => absurd hmem (by simp)
  | cons hpiece _ ih => exact List.forall_mem_cons.mpr ⟨hpiece.tokenForm, ih⟩

/-- The tokens in front of a cut end between two characters of the text. -/
theorem isValid_joinTokens {buffer : String} {front back : List String}
    (h : tokenize buffer = front ++ back) :
    (⟨(joinTokens front).utf8ByteSize⟩ : String.Pos.Raw).IsValid buffer := by
  have htext : buffer.toList = (joinTokens front).toList ++ (joinTokens back).toList := by
    have hjoin : joinTokens (front ++ back) = buffer := by rw [← h, joinTokens_tokenize]
    rw [← hjoin, toList_joinTokens, List.flatMap_append, ← toList_joinTokens, ← toList_joinTokens]
  rw [isValid_iff_cut?, htext, ← byteSize_toList]
  exact ⟨_, _, cut?_append _ _⟩

/-- **Cutting a text into tokens always ends well.**  Whatever the text is, the reader by offsets
comes to its end without looking at a byte that is not there, cutting a character in two, or taking
nothing.  The tokens that it finds are the ones that are cut off character by character.  None of
them is empty, joined they are the text, each has the form of tokens, and each cut between them
stands at a valid position of the text. -/
theorem tokenize_by_offsets (buffer : String) :
    tokenize? buffer = .ok (tokenize buffer) ∧
      joinTokens (tokenize buffer) = buffer ∧
      (∀ t ∈ tokenize buffer, t ≠ "" ∧ TokenForm t.toList) ∧
      ∀ front back, tokenize buffer = front ++ back →
        (⟨(joinTokens front).utf8ByteSize⟩ : String.Pos.Raw).IsValid buffer := by
  refine ⟨tokenize?_eq buffer, joinTokens_tokenize buffer, ?_, fun _ _ => isValid_joinTokens⟩
  intro t ht
  have hform : TokenForm t.toList := by
    have hseparable : Separable ((tokenize buffer).map String.toList) := by
      rw [map_toList_tokenize]
      exact (separable_cutTokens buffer.toList).1
    exact hseparable.tokenForm t.toList (List.mem_map_of_mem ht)
  refine ⟨?_, hform⟩
  rintro rfl
  exact hform.ne_nil rfl

/-- A mark before a bracket that nothing closes, next to characters of two and of four bytes, and
what looks like a mark at the end. -/
theorem tokenize_by_offsets_unclosed :
    let buffer := "C-A-<Down>C-éM-<😀S-"
    (tokenize buffer = ["C-A-<Down>", "C-é"] ++ ["M-<", "😀", "S", "-"] ∧
        "M-<" ∈ tokenize buffer) ∧
      tokenize? buffer = .ok ["C-A-<Down>", "C-é", "M-<", "😀", "S", "-"] ∧
      ("M-<" ≠ "" ∧ TokenForm "M-<".toList) ∧
      (⟨14⟩ : String.Pos.Raw).IsValid buffer ∧ ¬ (⟨13⟩ : String.Pos.Raw).IsValid buffer := by
  intro buffer
  have htokens : tokenize buffer = ["C-A-<Down>", "C-é"] ++ ["M-<", "😀", "S", "-"] := by
    decide +kernel
  have hmem : "M-<" ∈ tokenize buffer := by
    rw [htokens]
    decide
  obtain ⟨hrun, -, hforms, hvalid⟩ := tokenize_by_offsets buffer
  refine ⟨⟨htokens, hmem⟩, ?_, hforms "M-<" hmem, hvalid _ _ htokens, ?_⟩
  · rw [hrun, htokens]
    rfl
  · decide +kernel

end ModalStack
