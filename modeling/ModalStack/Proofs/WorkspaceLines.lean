/-
# Lines that ask for workspaces

Which lines ask for a workspace, and for which, is said here as a grammar: a colon, a word and
perhaps a name, with white space around the line and behind the colon (`CommandLine.Asks`).  The
reader trims the line, then what stands behind the colon, cuts off the first word, and trims what
is left.  It reads a line as a command if and only if the grammar does
(`CommandLine.parse_iff_asks`).

Trimming is done in three places, but it matters only that what it leaves is bare and that white
space stood around it.  A word is cut off at the first white space, so none of the words is taken
for a longer one that begins with it, and white space within a name belongs to the name.
-/
import Mathlib.Data.List.Basic
import ModalStack.CommandLine

namespace ModalStack.CommandLine

open Text

/-! ## 1. The grammar -/

/-- The words for a verb. -/
def Verb.words : Verb → List String
  | .switch => ["workspace", "w"]
  | .create => ["new-workspace", "nw"]
  | .list => ["workspaces", "ws"]

/-- The line is one of the words, by itself or with a name. -/
inductive Written (words : List String) : List Char → List Char → Prop
  | alone {lead gap trail : List Char} {word : String} : word ∈ words →
      lead.all isBlank = true → gap.all isBlank = true → trail.all isBlank = true →
      Written words [] (lead ++ (':' :: (gap ++ word.toList) ++ trail))
  | named {lead gap between name trail : List Char} {word : String} : word ∈ words →
      lead.all isBlank = true → gap.all isBlank = true → trail.all isBlank = true →
      between.all isBlank = true → between ≠ [] → Bare name → name ≠ [] →
      Written words name (lead ++ (':' :: (gap ++ (word.toList ++ (between ++ name))) ++ trail))

/-- **The grammar.**  To switch to a workspace or to create one takes a name, to list them takes
none. -/
inductive Asks (line : List Char) : Command → Prop
  | switch {name : List Char} : name ≠ [] → Written (Verb.words .switch) name line →
      Asks line (.switchWorkspace (String.ofList name))
  | create {name : List Char} : name ≠ [] → Written (Verb.words .create) name line →
      Asks line (.createWorkspace (String.ofList name))
  | list : Written (Verb.words .list) [] line → Asks line .listWorkspaces

/-! ## 2. Words -/

variable {line lead gap trail rest name : List Char} {word : String} {verb : Verb} {c : Command}

theorem Verb.ofWord?_eq_some_iff : Verb.ofWord? word = some verb ↔ word ∈ verb.words := by
  constructor
  · intro h
    unfold Verb.ofWord? at h
    split at h
    · rename_i hword
      obtain rfl := Option.some.inj h
      simpa [words] using hword
    · split at h
      · rename_i hword
        obtain rfl := Option.some.inj h
        simpa [words] using hword
      · obtain ⟨hword, hverb⟩ := Option.ite_none_right_eq_some.mp h
        obtain rfl := Option.some.inj hverb
        simpa [words] using hword
  · intro h
    cases verb with
    | _ =>
      rcases List.mem_pair.mp h with rfl | rfl
      · decide
      · decide

/-- There is something of it, and no white space in it. -/
structure IsWord (cs : List Char) : Prop where
  ne_nil : cs ≠ []
  solid : cs.all (fun c => !isBlank c) = true

theorem Verb.isWord (h : word ∈ verb.words) : IsWord word.toList := by
  cases verb with
  | _ =>
    rcases List.mem_pair.mp h with rfl | rfl
    · exact ⟨by decide, by decide⟩
    · exact ⟨by decide, by decide⟩

namespace IsWord

variable {cs : List Char}

theorem not_blank (h : IsWord cs) {c : Char} (hc : c ∈ cs) : isBlank c = false := by
  simpa using List.all_eq_true.mp h.solid c hc

theorem front (h : IsWord cs) (rest : List Char) :
    ∀ c ∈ (cs ++ rest).head?, isBlank c = false := by
  intro c hc
  obtain ⟨d, more, rfl⟩ := List.exists_cons_of_ne_nil h.ne_nil
  obtain rfl : d = c := by simpa using hc
  exact h.not_blank List.mem_cons_self

theorem back (h : IsWord cs) : ∀ c ∈ cs.getLast?, isBlank c = false :=
  fun _ hc => h.not_blank (List.mem_of_getLast? hc)

end IsWord

/-! ## 3. What the grammar allows is read -/

/-- The reader finds the word, and what stands behind it. -/
theorem parse_line (hword : IsWord word.toList) (hlead : lead.all isBlank = true)
    (hgap : gap.all isBlank = true) (htrail : trail.all isBlank = true)
    (hfront : ∀ c ∈ rest.head?, isBlank c = true)
    (hback : ∀ c ∈ (word.toList ++ rest).getLast?, isBlank c = false) :
    parse (String.ofList (lead ++ (':' :: (gap ++ (word.toList ++ rest)) ++ trail)))
      = (Verb.ofWord? word).bind fun verb => verb.command? (trim rest) := by
  have hbare : Bare (':' :: (gap ++ (word.toList ++ rest))) := by
    constructor
    · intro c hc
      obtain rfl : ':' = c := by simpa using hc
      decide
    · intro c hc
      have hne : word.toList ++ rest ≠ [] := List.append_ne_nil_of_left_ne_nil hword.ne_nil rest
      rw [← List.cons_append, List.getLast?_append_of_ne_nil _ hne] at hc
      exact hback c hc
  have hrest : rest.takeWhile (fun c => !isBlank c) = [] := by
    cases rest with
    | nil => rfl
    | cons c rest => simp [hfront c rfl]
  obtain ⟨hfirst, hafter⟩ := run_append hword.solid hrest
  rw [parse, String.toList_ofList, hbare.trim_append hlead htrail]
  simp only [trimStart_append hgap (hword.front rest), ofBody?, firstWord, afterWord, hfirst,
    hafter, String.ofList_toList]

/-- **A line of the grammar** asks for what its word asks for. -/
theorem parse_of_written (h : Written verb.words name line) :
    parse (String.ofList line) = verb.command? name := by
  cases h with
  | @alone lead gap trail word hword hlead hgap htrail =>
    have hw : IsWord word.toList := Verb.isWord hword
    have hback : ∀ c ∈ (word.toList ++ []).getLast?, isBlank c = false := by
      rw [List.append_nil]
      exact hw.back
    have hparse := parse_line hw hlead hgap htrail (by simp) hback
    rw [List.append_nil, Verb.ofWord?_eq_some_iff.mpr hword] at hparse
    exact hparse
  | @named lead gap between _ trail word hword hlead hgap htrail hbetween hne hbare hname =>
    have hw : IsWord word.toList := Verb.isWord hword
    have hfront : ∀ c ∈ (between ++ name).head?, isBlank c = true := by
      intro c hc
      obtain ⟨d, more, rfl⟩ := List.exists_cons_of_ne_nil hne
      obtain rfl : d = c := by simpa using hc
      exact List.all_eq_true.mp hbetween d List.mem_cons_self
    have hback : ∀ c ∈ (word.toList ++ (between ++ name)).getLast?, isBlank c = false := by
      rw [← List.append_assoc, List.getLast?_append_of_ne_nil _ hname]
      exact hbare.back
    have htrim : trim (between ++ (name ++ [])) = name := hbare.trim_append hbetween rfl
    rw [List.append_nil] at htrim
    rw [parse_line hw hlead hgap htrail hfront hback, htrim, Verb.ofWord?_eq_some_iff.mpr hword]
    rfl

/-! ## 4. What is read is allowed by the grammar -/

/-- White space comes first of what stands behind the first word. -/
theorem ne_nil_of_afterWord {cs between after : List Char}
    (h : cs.dropWhile (fun c => !isBlank c) = between ++ (name ++ after)) (hbare : Bare name)
    (hname : name ≠ []) : between ≠ [] := by
  rintro rfl
  obtain ⟨c, more, rfl⟩ := List.exists_cons_of_ne_nil hname
  have hfirst := List.head?_dropWhile_not (fun c => !isBlank c) cs
  rw [h] at hfirst
  have hblank : isBlank c = true := by simpa using hfirst
  rw [hbare.front c rfl] at hblank
  exact absurd hblank (by simp)

/-- **What is read was written.** -/
theorem written_of_parse (h : parse (String.ofList line) = some c) :
    ∃ (verb : Verb) (name : List Char),
      Written verb.words name line ∧ verb.command? name = some c := by
  rw [parse, String.toList_ofList] at h
  split at h
  · rename_i body hbody
    obtain ⟨verb, hverb, hcommand⟩ := Option.bind_eq_some_iff.mp h
    obtain ⟨lead, trail, hlead, htrail, hline, -⟩ := exists_trim line
    obtain ⟨gap, hgap, hgapped, -⟩ := exists_trimStart body
    have hword : String.ofList (firstWord (trimStart body)) ∈ verb.words :=
      Verb.ofWord?_eq_some_iff.mp hverb
    have hcut : firstWord (trimStart body)
        ++ (trimStart body).dropWhile (fun c => !isBlank c) = trimStart body :=
      List.takeWhile_append_dropWhile
    obtain ⟨between, after, hbetween, hafter, hrest, hbare⟩ :=
      exists_trim ((trimStart body).dropWhile fun c => !isBlank c)
    rw [hbody, hgapped, ← hcut, hrest] at hline
    refine ⟨verb, afterWord (trimStart body), ?_, hcommand⟩
    by_cases hname : afterWord (trimStart body) = []
    · have hblank : (between ++ (after ++ trail)).all isBlank = true := by
        simp [List.all_append, hbetween, hafter, htrail]
      have hwritten := Written.alone hword hlead hgap hblank
      rw [String.toList_ofList] at hwritten
      rw [show trim _ = [] from hname] at hline
      rw [hname, hline]
      simpa using hwritten
    · have hblank : (after ++ trail).all isBlank = true := by
        simp [List.all_append, hafter, htrail]
      have hwritten := Written.named hword hlead hgap hblank hbetween
        (ne_nil_of_afterWord hrest hbare hname) hbare hname
      rw [String.toList_ofList] at hwritten
      rw [hline]
      simpa [afterWord] using hwritten
  · exact absurd h (by simp)

/-! ## 5. The reader and the grammar -/

theorem parse_ofList_iff : parse (String.ofList line) = some c ↔ Asks line c := by
  constructor
  · intro h
    obtain ⟨verb, name, hwritten, hcommand⟩ := written_of_parse h
    cases verb with
    | switch =>
      obtain ⟨hname, ⟨⟩⟩ := Option.ite_none_left_eq_some.mp hcommand
      exact .switch (by simpa using hname) hwritten
    | create =>
      obtain ⟨hname, ⟨⟩⟩ := Option.ite_none_left_eq_some.mp hcommand
      exact .create (by simpa using hname) hwritten
    | list =>
      obtain ⟨hname, ⟨⟩⟩ := Option.ite_none_right_eq_some.mp hcommand
      obtain rfl : name = [] := by simpa using hname
      exact .list hwritten
  · intro h
    cases h with
    | switch hname hwritten | create hname hwritten =>
      rw [parse_of_written hwritten]
      exact if_neg (by simpa using hname)
    | list hwritten => rw [parse_of_written hwritten]; rfl

/-- A name behind a word and one space is read with that word. -/
theorem written_behind_word (hword : word ∈ verb.words) (hbare : Bare name) (hname : name ≠ []) :
    Written verb.words name (':' :: (word.toList ++ ' ' :: name)) := by
  have hwritten : Written verb.words name
      ([] ++ (':' :: ([] ++ (word.toList ++ ([' '] ++ name))) ++ [])) :=
    .named hword rfl rfl rfl rfl (by simp) hbare hname
  simpa using hwritten

/-- **The reader follows the grammar.**  A line is read as a command if and only if it asks for it,
and the lines that ask for nothing are left to the host.  So a name, if there is anything of it and
no white space at its ends, comes back from the line that is made of it. -/
theorem parse_iff_asks :
    (∀ line c, parse line = some c ↔ Asks line.toList c) ∧
      (∀ line, parse line = none ↔ ∀ c, ¬ Asks line.toList c) ∧
      ∀ name : String, name ≠ "" → Bare name.toList →
        parse (":w " ++ name) = some (.switchWorkspace name) ∧
          parse (":nw " ++ name) = some (.createWorkspace name) := by
  have hparse : ∀ line c, parse line = some c ↔ Asks line.toList c := by
    intro line c
    rw [← parse_ofList_iff, String.ofList_toList]
  refine ⟨hparse, fun line => ?_, fun name hname hbare => ?_⟩
  · simp only [Option.eq_none_iff_forall_ne_some, ne_eq, hparse]
  · have hname' : name.toList ≠ [] := by simpa using hname
    constructor
    · have hasks : Asks (':' :: ("w".toList ++ ' ' :: name.toList))
          (.switchWorkspace (String.ofList name.toList)) :=
        .switch hname' (written_behind_word (by decide) hbare hname')
      rw [hparse]
      simpa using hasks
    · have hasks : Asks (':' :: ("nw".toList ++ ' ' :: name.toList))
          (.createWorkspace (String.ofList name.toList)) :=
        .create hname' (written_behind_word (by decide) hbare hname')
      rw [hparse]
      simpa using hasks

/-- A name may have white space in it, of any kind, and may begin with a word and a colon. -/
theorem parse_iff_asks_inner_space :
    let name := "w :  x\u3000y"
    (name ≠ "" ∧ Bare name.toList) ∧
      parse (":w " ++ name) = some (.switchWorkspace name) ∧
      parse (":nw " ++ name) = some (.createWorkspace name) := by
  intro name
  have hname : name ≠ "" := by decide
  have hbare : Bare name.toList :=
    ⟨by simp [name, isBlank, isAscii], by simp [name, isBlank, isAscii]⟩
  exact ⟨⟨hname, hbare⟩, parse_iff_asks.2.2 name hname hbare⟩

end ModalStack.CommandLine
