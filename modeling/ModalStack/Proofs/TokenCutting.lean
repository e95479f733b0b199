/-
# Cutting joined tokens apart

Tokens that were joined to one text can be cut apart again, but not always into the same ones: the
three tokens of `C`, `-` and `j` come back as one chord.  Whether a token comes back depends on
what stands behind it and on nothing before it (`ReadsAsOne`), so a list comes back exactly if
each of its tokens does, in front of the rest (`tokenize_joinTokens_iff`).

Two sorts of lists always come back.

* Tokens of key presses, unless a character is among them that can begin something longer: an
  opening angle bracket, or the letter of a modifier mark (`tokenize_tokens`).
* The keys of a command that is pending under the default keymaps.  They may well be letters of
  marks, as names of registers or in names of items, but what is pending has no hyphen in it and
  no angle bracket (`Keymap.chars_of_pending`).
-/
import ModalStack.Proofs.Completing

namespace ModalStack

/-! ## 1. What is read as one token -/

/-- The text is cut off as one token, if `rest` stands behind it. -/
inductive ReadsAsOne (rest : List Char) : List Char → Prop
  /-- A character that begins neither a mark nor a group. -/
  | char {c : Char} : beginsMark c rest = false → (c = '<' → '>' ∉ rest) → ReadsAsOne rest [c]
  /-- A group, up to the first bracket that closes it. -/
  | group {name : List Char} : '>' ∉ name → ReadsAsOne rest ('<' :: (name ++ ['>']))
  /-- One mark more. -/
  | marked {letter : Char} {piece : List Char} : letter ∈ markLetters → ReadsAsOne rest piece →
      ReadsAsOne rest (letter :: '-' :: piece)

/-- Each text is cut off as one token, in front of those that follow it. -/
inductive Separable : List (List Char) → Prop
  | nil : Separable []
  | cons {piece : List Char} {pieces : List (List Char)} : ReadsAsOne pieces.flatten piece →
      Separable pieces → Separable (piece :: pieces)

section

variable {rest piece name cs : List Char} {pieces : List (List Char)} {c letter : Char}

theorem ReadsAsOne.exists_cons (h : ReadsAsOne rest piece) : ∃ c cs, piece = c :: cs := by
  cases h with
  | char _ _ => exact ⟨_, _, rfl⟩
  | group _ => exact ⟨_, _, rfl⟩
  | marked _ _ => exact ⟨_, _, rfl⟩

theorem beginsMark_of_letter (h : letter ∈ markLetters) (c : Char) (cs : List Char) :
    beginsMark letter ('-' :: c :: cs) = true := by
  simpa [beginsMark] using h

theorem beginsMark_of_not_letter (h : c ∉ markLetters) (rest : List Char) :
    beginsMark c rest = false := by
  simp [beginsMark, h]

theorem beginsMark_of_no_hyphen (h : '-' ∉ rest) (c : Char) : beginsMark c rest = false := by
  unfold beginsMark
  split
  · exact absurd List.mem_cons_self h
  · exact Bool.and_false _

/-- A mark begins with its letter and a hyphen. -/
theorem exists_of_beginsMark (h : beginsMark c rest = true) :
    c ∈ markLetters ∧ ∃ d more, rest = '-' :: d :: more := by
  unfold beginsMark at h
  obtain ⟨hc, hrest⟩ := (Bool.and_eq_true _ _).mp h
  refine ⟨by simpa using hc, ?_⟩
  split at hrest
  · exact ⟨_, _, rfl⟩
  · exact absurd hrest (by simp)

/-- Behind an opening bracket everything is taken up to the one that closes it. -/
theorem cutTokens_inGroup (h : '>' ∉ name) (taken rest : List Char) :
    cutTokens .inGroup taken (name ++ '>' :: rest)
      = (taken ++ name ++ ['>']) :: cutTokens .fresh [] rest := by
  induction name generalizing taken with
  | nil => simp [cutTokens]
  | cons c name ih =>
    obtain ⟨hc, hname⟩ := not_or.mp fun hor => h (List.mem_cons.mpr hor)
    rw [List.cons_append, cutTokens, if_neg (Ne.symm hc), ih hname, List.append_assoc taken]
    rfl

/-- **What is read as one token is cut off.** -/
theorem ReadsAsOne.cutTokens_append (h : ReadsAsOne rest piece) (taken : List Char) :
    cutTokens .fresh taken (piece ++ rest) = (taken ++ piece) :: cutTokens .fresh [] rest := by
  induction h generalizing taken with
  | @char c hmark hgroup =>
    have hopen : ¬ (c = '<' ∧ '>' ∈ rest) := fun hc => hgroup hc.1 hc.2
    rw [List.singleton_append, cutTokens, if_neg (by simp [hmark]), if_neg hopen]
  | @group name hname =>
    have hmark : beginsMark '<' (name ++ '>' :: rest) = false :=
      beginsMark_of_not_letter (by decide) _
    rw [List.cons_append, List.append_assoc, List.singleton_append, cutTokens,
      if_neg (by simp [hmark]), if_pos ⟨rfl, by simp⟩, cutTokens_inGroup hname]
    simp
  | @marked letter piece hletter hpiece ih =>
    -- the piece is not empty, so there is something to modify
    obtain ⟨c, cs, hcons⟩ := hpiece.exists_cons
    have hmark : beginsMark letter ('-' :: (piece ++ rest)) = true := by
      rw [hcons]
      exact beginsMark_of_letter hletter c (cs ++ rest)
    rw [List.cons_append, List.cons_append, cutTokens, if_pos hmark, cutTokens, ih]
    simp

theorem Separable.cutTokens_flatten (h : Separable pieces) :
    cutTokens .fresh [] pieces.flatten = pieces := by
  induction h with
  | nil => rfl
  | cons hpiece _ ih => rw [List.flatten_cons, hpiece.cutTokens_append, ih, List.nil_append]

/-- Every text begins with something that is read as one token. -/
theorem exists_readsAsOne (c : Char) (cs : List Char) :
    ∃ piece rest, c :: cs = piece ++ rest ∧ ReadsAsOne rest piece := by
  by_cases hmark : beginsMark c cs = true
  · obtain ⟨hletter, d, more, rfl⟩ := exists_of_beginsMark hmark
    obtain ⟨piece, rest, heq, hpiece⟩ := exists_readsAsOne d more
    exact ⟨c :: '-' :: piece, rest, by rw [heq]; rfl, .marked hletter hpiece⟩
  · by_cases hgroup : c = '<' ∧ '>' ∈ cs
    · obtain ⟨rfl, hclosed⟩ := hgroup
      obtain ⟨name, rest, rfl, hname⟩ := List.eq_append_cons_of_mem hclosed
      exact ⟨'<' :: (name ++ ['>']), rest, by simp, .group hname⟩
    · exact ⟨[c], cs, rfl, .char (by simpa using hmark) fun hc hclosed => hgroup ⟨hc, hclosed⟩⟩
  termination_by cs.length

/-- **What a cut finds** is read token by token, and nothing is lost. -/
theorem separable_cutTokens (cs : List Char) :
    Separable (cutTokens .fresh [] cs) ∧ (cutTokens .fresh [] cs).flatten = cs := by
  -- the piece that is cut off is not empty, so what is left is shorter
  induction hlen : cs.length using Nat.strongRecOn generalizing cs with
  | ind n ih =>
    cases cs with
    | nil => exact ⟨.nil, rfl⟩
    | cons c cs =>
      obtain ⟨piece, rest, heq, hpiece⟩ := exists_readsAsOne c cs
      have hshorter : rest.length < n := by
        obtain ⟨_, _, rfl⟩ := hpiece.exists_cons
        rw [← hlen, heq, List.length_append, List.length_cons]
        omega
      obtain ⟨hrest, hflat⟩ := ih rest.length hshorter rest rfl
      rw [heq, hpiece.cutTokens_append, List.nil_append]
      refine ⟨.cons ?_ hrest, ?_⟩
      · rwa [hflat]
      · rw [List.flatten_cons, hflat]

end

/-! ## 2. What is cut into the same tokens again -/

theorem toList_joinTokens_flatten (tokens : List String) :
    (joinTokens tokens).toList = (tokens.map String.toList).flatten := by
  rw [toList_joinTokens, List.flatMap_def]

theorem map_toList_tokenize (buffer : String) :
    (tokenize buffer).map String.toList = cutTokens .fresh [] buffer.toList := by
  rw [tokenize, List.map_map]
  exact List.map_id'' (fun _ => String.toList_ofList) _

/-- Joining undoes cutting. -/
theorem joinTokens_tokenize (buffer : String) : joinTokens (tokenize buffer) = buffer := by
  rw [← String.toList_inj, toList_joinTokens_flatten, map_toList_tokenize]
  exact (separable_cutTokens buffer.toList).2

/-- **Where cutting undoes joining.**  Tokens come back exactly if each of them is read as one
in front of the rest. -/
theorem tokenize_joinTokens_iff {tokens : List String} :
    tokenize (joinTokens tokens) = tokens ↔ Separable (tokens.map String.toList) := by
  constructor
  · intro h
    rw [← h, map_toList_tokenize]
    exact (separable_cutTokens _).1
  · intro h
    have hcut : (tokenize (joinTokens tokens)).map String.toList = tokens.map String.toList := by
      rw [map_toList_tokenize, toList_joinTokens_flatten, h.cutTokens_flatten]
    exact (List.map_inj_right fun _ _ => String.toList_inj.mp).mp hcut

/-! ## 3. Tokens of key presses -/

/-- The key is a character with which something longer can begin: an opening angle bracket or the
letter of a mark. -/
def KeyCode.isAmbiguous : KeyCode → Bool
  | .char c => c == '<' || markLetters.contains c
  | _ => false

section

variable {rest piece : List Char}

theorem ReadsAsOne.behind_mark (h : ReadsAsOne rest piece) {letter : Char}
    (hletter : letter ∈ markLetters) (held : Bool) :
    ReadsAsOne rest (modifierMark held letter ++ piece) := by
  cases held with
  | false => exact h
  | true => exact .marked hletter h

theorem ReadsAsOne.behind_marks (h : ReadsAsOne rest piece) (press : KeyPress) :
    ReadsAsOne rest (press.marks ++ piece) := by
  simp only [KeyPress.marks, List.append_assoc]
  exact (((h.behind_mark (by decide) _).behind_mark (by decide) _).behind_mark
    (by decide) _).behind_mark (by decide) _

theorem readsAsOne_bracketed {name : String} (h : '>' ∉ name.toList) :
    ReadsAsOne rest (bracketed name) :=
  .group h

/-- A character is read as one token, if nothing longer can begin with it or nothing follows. -/
theorem readsAsOne_char {c : Char} (h : (KeyCode.char c).isAmbiguous = true → rest = []) :
    ReadsAsOne rest [c] := by
  cases hc : (KeyCode.char c).isAmbiguous with
  | true =>
    obtain rfl := h hc
    exact .char (beginsMark_of_no_hyphen (by simp) c) fun _ => by simp
  | false =>
    obtain ⟨hbracket, hletter⟩ : c ≠ '<' ∧ c ∉ markLetters := by
      simpa [KeyCode.isAmbiguous] using hc
    exact .char (beginsMark_of_not_letter hletter rest) fun heq => absurd heq hbracket

theorem KeyCode.readsAsOne_label {code : KeyCode} (h : code.isAmbiguous = true → rest = []) :
    ReadsAsOne rest code.label := by
  cases code with
  | char c => exact readsAsOne_char h
  | function n =>
    refine readsAsOne_bracketed fun hmem => ?_
    rw [String.toList_append] at hmem
    rcases List.mem_append.mp hmem with hmem | hmem
    · exact absurd hmem (by decide)
    · -- the number of a function key is written in digits
      have hdigit : '>'.isDigit = true :=
        List.all_eq_true.mp (Numeral.isNumeral_text n).digits '>' hmem
      exact absurd hdigit (by decide)
  | _ => exact readsAsOne_bracketed (by decide)

/-- **The token of a key press** is read as one, if nothing longer can begin with its key or
nothing follows. -/
theorem KeyPress.readsAsOne_token {press : KeyPress}
    (h : press.code.isAmbiguous = true → rest = []) : ReadsAsOne rest press.token.toList := by
  unfold token
  split
  · have hescape : ReadsAsOne rest (bracketed "Escape") := readsAsOne_bracketed (by decide)
    exact hescape
  · rw [String.toList_ofList]
    exact (KeyCode.readsAsOne_label h).behind_marks press

end

theorem separable_tokens {presses : List KeyPress}
    (h : ∀ press ∈ presses, press.code.isAmbiguous = false) :
    Separable ((presses.map KeyPress.token).map String.toList) := by
  induction presses with
  | nil => exact .nil
  | cons press presses ih =>
    obtain ⟨hpress, hpresses⟩ := List.forall_mem_cons.mp h
    exact .cons (KeyPress.readsAsOne_token fun htrue => absurd htrue (by simp [hpress]))
      (ih hpresses)

/-- **Cutting undoes joining** for the tokens of key presses, unless one of the keys is an opening
angle bracket or the letter of a modifier mark.  A single token always comes back as it was. -/
theorem tokenize_tokens :
    (∀ presses : List KeyPress, (∀ press ∈ presses, press.code.isAmbiguous = false) →
        tokenize (joinTokens (presses.map KeyPress.token)) = presses.map KeyPress.token) ∧
      ∀ press : KeyPress, tokenize press.token = [press.token] := by
  constructor
  · intro presses h
    exact tokenize_joinTokens_iff.mpr (separable_tokens h)
  · intro press
    have hjoined : joinTokens [press.token] = press.token := by simp [joinTokens]
    have hsingle : Separable ([press.token].map String.toList) :=
      .cons (KeyPress.readsAsOne_token fun _ => rfl) .nil
    have hcut := tokenize_joinTokens_iff.mpr hsingle
    rwa [hjoined] at hcut

/-- Marks before every sort of key, next to keys that look like parts of marks and groups. -/
theorem tokenize_tokens_marked :
    let presses : List KeyPress :=
      [{ code := .char '-', mods := { ctrl := true, alt := true } }, { code := .char '-' },
       { code := .down, mods := { shift := true, metaKey := true } }, { code := .char '>' },
       { code := .function 12 }, { code := .char 'é', mods := { ctrl := true } },
       { code := .char '[', mods := { ctrl := true } }, { code := .char '3' }]
    ((∀ press ∈ presses, press.code.isAmbiguous = false) ∧
        joinTokens (presses.map KeyPress.token) = "C-A---M-S-<Down>><F12>C-é<Escape>3") ∧
      tokenize (joinTokens (presses.map KeyPress.token)) = presses.map KeyPress.token ∧
      tokenize (KeyPress.token { code := .char '<', mods := { alt := true } })
        = [KeyPress.token { code := .char '<', mods := { alt := true } }] := by
  intro presses
  have h : ∀ press ∈ presses, press.code.isAmbiguous = false := by decide
  exact ⟨⟨h, by decide +kernel⟩, tokenize_tokens.1 presses h, tokenize_tokens.2 _⟩

/-! ## 4. Pending commands -/

/-- Where no hyphen and no opening bracket stands, every character is a token. -/
theorem separable_of_singles {pieces : List (List Char)} (h : ∀ piece ∈ pieces, ∃ c, piece = [c])
    (hhyphen : '-' ∉ pieces.flatten) (hbracket : '<' ∉ pieces.flatten) : Separable pieces := by
  induction pieces with
  | nil => exact .nil
  | cons piece pieces ih =>
    obtain ⟨⟨c, rfl⟩, hpieces⟩ := List.forall_mem_cons.mp h
    rw [List.flatten_cons, List.singleton_append, List.mem_cons, not_or] at hhyphen hbracket
    refine .cons (.char (beginsMark_of_no_hyphen hhyphen.2 c) ?_) (ih hpieces hhyphen.2 hbracket.2)
    exact fun heq => absurd heq.symm hbracket.1

namespace Keymap

variable {m : Keymap} {keys : List String} {c : Char}

/-- What stands behind the register prefix of a pending command. -/
theorem chars_of_pending_body (hd : ∀ e ∈ m.entries, e.2.isDoubled e.1 = true)
    (h : Phrase.Beginning (joinTokens keys).toList ∨
      m.walk (keys.dropWhile isDigitToken) = .unfinished)
    (hc : c ∈ (joinTokens keys).toList) : Text.isWord c = true ∨ c = ',' ∨ c = '@' := by
  rcases h with hbeginning | hwalk
  · exact hbeginning.chars hc
  · left
    obtain ⟨op, a, hdrop, hop, -⟩ := exists_of_walk_unfinished hd hwalk
    rw [mem_joinTokens, ← List.takeWhile_append_dropWhile (p := isDigitToken) (l := keys)] at hc
    obtain ⟨t, ht, hmem⟩ := hc
    rcases List.mem_append.mp ht with ht | ht
    · obtain ⟨d, htoken, hdigit⟩ :=
        isDigitToken_iff.mp (List.all_eq_true.mp List.all_takeWhile t ht)
      rw [htoken] at hmem
      rw [List.mem_singleton.mp hmem]
      exact Text.isWord_of_isAlphanum (by simp [Char.isAlphanum, hdigit])
    · rw [hdrop] at ht
      rw [List.mem_singleton.mp ht, String.toList_singleton] at hmem
      rw [List.mem_singleton.mp hmem]
      exact Text.isWord_of_isAlphanum (by simp [Char.isAlphanum, hop])

/-- What stands in a register prefix. -/
theorem char_of_register {name : String} (hname : isRegisterToken name = true)
    (hc : c ∈ name.toList) : Text.isWord c = true ∨ c = '"' := by
  obtain ⟨d, hd, hregister⟩ := exists_of_isRegisterToken hname
  rw [hd] at hc
  rw [List.mem_singleton.mp hc]
  rcases Bool.or_eq_true_iff.mp hregister with halnum | hquote
  · exact .inl (Text.isWord_of_isAlphanum halnum)
  · exact .inr (eq_of_beq hquote)

/-- **What stands in a pending command**, if the keymap waits for nothing but letters typed once
more: characters of names, and the signs of registers, ranges and names. -/
theorem chars_of_pending (hd : ∀ e ∈ m.entries, e.2.isDoubled e.1 = true)
    (h : m.resolveKeys keys = .pending) (hc : c ∈ (joinTokens keys).toList) :
    (Text.isWord c = true ∨ c = '"') ∨ c = ',' ∨ c = '@' := by
  obtain ⟨t, ht, hmem⟩ := mem_joinTokens.mp hc
  have hquote : t = "\"" → c = '"' := by
    rintro rfl
    exact List.mem_singleton.mp hmem
  rcases pending_cases h with hsplit | ⟨register, first, rest, hsplit, hbody⟩
  · rcases splitRegisterKeys_eq_incomplete hsplit with rfl | ⟨name, hname, rfl⟩
    · exact .inl (.inr (hquote (List.mem_singleton.mp ht)))
    · rcases List.mem_cons.mp ht with ht | ht
      · exact .inl (.inr (hquote ht))
      · rw [List.mem_singleton.mp ht] at hmem
        exact .inl (char_of_register hname hmem)
  · have hchars : t ∈ first :: rest → (Text.isWord c = true ∨ c = '"') ∨ c = ',' ∨ c = '@' := by
      intro ht
      rcases chars_of_pending_body hd hbody (mem_joinTokens.mpr ⟨t, ht, hmem⟩) with hword | hsign
      · exact .inl (.inl hword)
      · exact .inr hsign
    rcases splitRegisterKeys_eq_split hsplit with ⟨-, rfl, -⟩ | ⟨name, -, hname, -, rfl⟩
    · exact hchars ht
    · rcases List.mem_cons.mp ht with ht | ht
      · exact .inl (.inr (hquote ht))
      · rcases List.mem_cons.mp ht with rfl | ht
        · exact .inl (char_of_register hname hmem)
        · exact hchars ht

/-- **Pending keys come back** when their text is cut. -/
theorem tokenize_of_pending (hd : ∀ e ∈ m.entries, e.2.isDoubled e.1 = true)
    (hk : ∀ t ∈ keys, IsToken t) (h : m.resolveKeys keys = .pending) :
    tokenize (joinTokens keys) = keys := by
  have hnot : ∀ {c}, Text.isWord c = false → c ∉ ['"', ',', '@'] →
      c ∉ (joinTokens keys).toList := by
    intro c hword hsign hc
    rcases chars_of_pending hd h hc with (htrue | rfl) | rfl | rfl
    · exact absurd htrue (by simp [hword])
    all_goals exact absurd (by decide) hsign
  have hhyphen : '-' ∉ (joinTokens keys).toList := hnot (by decide +kernel) (by decide)
  have hbracket : '<' ∉ (joinTokens keys).toList := hnot (by decide +kernel) (by decide)
  have hsingle : ∀ piece ∈ keys.map String.toList, ∃ c, piece = [c] := by
    intro piece hpiece
    obtain ⟨t, ht, rfl⟩ := List.mem_map.mp hpiece
    exact single_of_plain hk hhyphen hbracket t ht
  rw [toList_joinTokens_flatten] at hhyphen hbracket
  exact tokenize_joinTokens_iff.mpr (separable_of_singles hsingle hhyphen hbracket)

end Keymap

namespace Engine.Reachable

variable {η : Type} {setup : Setup} {e : Engine η}

/-- **The text of a pending command says which keys were typed.**  Whatever a host has done to an
engine with the default keymaps: if something is half typed, the buffer is cut into the very keys
that were typed, so the text and the keys resolve alike, and more is awaited.  Keys of other texts
can be lost. -/
theorem tokenize_buffer (hk : setup.keymaps = .default) (h : e.Reachable setup)
    (hne : e.state.buffer ≠ "") :
    tokenize e.state.buffer = e.state.keys ∧
      (∃ m, e.keymaps.forMode? e.state.mode = some m ∧
        m.resolveKeys e.state.keys = .pending ∧ m.resolve e.state.buffer = .pending) ∧
      ∃ presses : List KeyPress,
        tokenize (joinTokens (presses.map KeyPress.token)) ≠ presses.map KeyPress.token := by
  have hg := h.gathered
  have hkeys : e.state.keys ≠ [] := by
    intro hnil
    refine hne ?_
    rw [hg.buffer, hnil]
    rfl
  obtain ⟨hgathers, m, hm, hpending⟩ := hg.pending hkeys
  have hm' : m.Finishes := by
    rw [hk] at hm
    exact Keymap.default_finishes (State.gathers_iff.mp hgathers) hm
  have hcut : tokenize e.state.buffer = e.state.keys := by
    rw [hg.buffer]
    exact Keymap.tokenize_of_pending hm'.doubled hg.tokens hpending
  refine ⟨hcut, ⟨m, by rw [h.keymaps]; exact hm, hpending, ?_⟩, ?_⟩
  · rw [Keymap.resolve, hcut]
    exact hpending
  · exact ⟨[{ code := .char 'C' }, { code := .char '-' }, { code := .char 'j' }], by
      decide +kernel⟩

/-- A name in visual mode, behind a register: both begin with letters of marks. -/
theorem tokenize_buffer_of_letters :
    let e : Engine Unit :=
      (Setup.start { depth := 5 }).run (typing ['v', '"', 'S', '@', 'C', 'M'])
    (e.Reachable { depth := 5 } ∧ e.state.buffer ≠ "" ∧
        e.state.keys = ["\"", "S", "@", "C", "M"]) ∧
      tokenize e.state.buffer = e.state.keys ∧
      (∃ m, e.keymaps.forMode? e.state.mode = some m ∧
        m.resolveKeys e.state.keys = .pending ∧ m.resolve e.state.buffer = .pending) ∧
      ∃ presses : List KeyPress,
        tokenize (joinTokens (presses.map KeyPress.token)) ≠ presses.map KeyPress.token := by
  intro e
  have h : e.Reachable { depth := 5 } := Reachable.start.run _
  have hne : e.state.buffer ≠ "" := by decide +kernel
  exact ⟨⟨h, hne, by decide +kernel⟩, tokenize_buffer rfl h hne⟩

end Engine.Reachable

end ModalStack
