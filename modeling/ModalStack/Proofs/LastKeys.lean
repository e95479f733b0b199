/-
# The last key

A list of tokens that is not refused has a last one, and what that can be depends little on
the ones before it.  Behind a register prefix it ends a phrase, or the beginning of one, or it
is a key of the keymap; else it is part of the prefix (`Keymap.LastKey.of_resolveKeys`).

Together with what is known of the ends of phrases this tells a key that can still count from
one that cannot, without another look at the keymap or the grammar (`Keymap.LastKey.ends`).
-/
import ModalStack.Proofs.PendingKeys
import ModalStack.Proofs.PhraseEnds

namespace ModalStack

/-! ## 1. The keys of a keymap -/

mutual

/-- The keys of the keymap that a binding leads to, if it leads to one. -/
def Binding.keys : Binding → List String
  | .action _ => []
  | .submap m => tableKeys m

/-- The keys of a keymap and of all that it leads to. -/
def tableKeys : KeyTable Binding → List String
  | ⟨_, entries⟩ => entriesKeys entries

/-- The keys of some entries. -/
def entriesKeys : List (String × Binding) → List String
  | [] => []
  | (key, binding) :: rest => key :: (binding.keys ++ entriesKeys rest)

end

/-- The keys of a keymap and of all keymaps that it leads to. -/
def Keymap.keys (m : Keymap) : List String := tableKeys m

namespace Keymap

variable {m : Keymap} {key t : String}

theorem mem_entriesKeys {entries : List (String × Binding)} {binding : Binding}
    (h : (key, binding) ∈ entries) :
    key ∈ entriesKeys entries ∧ ∀ t ∈ binding.keys, t ∈ entriesKeys entries := by
  induction entries with
  | nil => exact absurd h (by simp)
  | cons e rest ih =>
    obtain ⟨k, b⟩ := e
    simp only [entriesKeys, List.mem_cons, List.mem_append]
    rcases List.mem_cons.mp h with heq | h
    · obtain ⟨rfl, rfl⟩ := Prod.mk.inj heq
      exact ⟨.inl rfl, fun t ht => .inr (.inl ht)⟩
    · obtain ⟨hkey, hkeys⟩ := ih h
      exact ⟨.inr (.inr hkey), fun t ht => .inr (.inr (hkeys t ht))⟩

/-- What is bound is a key, and the keys behind it are keys too. -/
theorem mem_keys_of_get? {binding : Binding} (h : m.get? key = some binding) :
    key ∈ m.keys ∧ ∀ t ∈ binding.keys, t ∈ m.keys := by
  have hmem : (key, binding) ∈ m.entries := KeyTable.mem_of_get? h
  obtain ⟨name, entries⟩ := m
  exact mem_entriesKeys hmem

theorem mem_keys_of_action? {a : Action} (h : m.action? key = some a) : key ∈ m.keys := by
  unfold Keymap.action? at h
  split at h
  · rename_i b hb
    exact (mem_keys_of_get? hb).1
  · exact absurd h (by simp)

/-- The last token of a walk that is not lost is a key. -/
theorem mem_keys_of_walk {front : List String} (h : m.walk (front ++ [t]) ≠ .lost) :
    t ∈ m.keys := by
  induction front generalizing m with
  | nil =>
    rw [List.nil_append, Keymap.walk] at h
    split at h
    · exact absurd rfl h
    · rename_i b hb
      exact (mem_keys_of_get? hb).1
    · rename_i next hb
      exact (mem_keys_of_get? hb).1
  | cons first rest ih =>
    rw [List.cons_append, Keymap.walk] at h
    split at h
    · exact absurd rfl h
    · -- an action that comes too early
      simp at h
    · rename_i next hb
      have hnext : Keymap.walk next (rest ++ [t]) ≠ .lost := by simpa using h
      exact (mem_keys_of_get? hb).2 t (ih hnext)

end Keymap

/-- The keys of all modes. -/
def Keymaps.keys (k : Keymaps) : List String :=
  k.normal.keys ++ k.insert.keys ++ k.visual.keys ++ k.command.keys

theorem Keymaps.mem_keys {k : Keymaps} {mode : Mode} {m : Keymap} {t : String}
    (hm : k.forMode? mode = some m) (ht : t ∈ m.keys) : t ∈ k.keys := by
  simp only [Keymaps.keys, List.mem_append]
  cases mode with
  | normal => obtain rfl := Option.some.inj hm; exact .inl (.inl (.inl ht))
  | insert => obtain rfl := Option.some.inj hm; exact .inl (.inl (.inr ht))
  | visual => obtain rfl := Option.some.inj hm; exact .inl (.inr ht)
  | command => obtain rfl := Option.some.inj hm; exact .inr ht
  | search => exact absurd hm (by simp [Keymaps.forMode?])

/-! ## 2. The last token -/

/-- Two resolutions cannot be compared, since actions are functions, but a refusal is seen. -/
instance : (r : Resolution) → Decidable (r = .invalid)
  | .resolved _ => isFalse nofun
  | .pending => isFalse nofun
  | .invalid => isTrue rfl

/-- What the last of some tokens can be, if the keymap does not refuse them. -/
inductive Keymap.LastKey (m : Keymap) (keys : List String) (t : String) : Prop
  /-- It belongs to a register prefix. -/
  | register : typedBody keys = [] → isRegisterToken t = true → LastKey m keys t
  /-- It ends a phrase. -/
  | phrase : (Phrase.parse (joinTokens (typedBody keys ++ [t]))).isSome = true → LastKey m keys t
  /-- It ends the beginning of a phrase. -/
  | beginning : Phrase.isPending (joinTokens (typedBody keys ++ [t])) = true → LastKey m keys t
  | bound : t ∈ m.keys → LastKey m keys t

/-- A register is named by one character. -/
theorem exists_of_isRegisterToken {t : String} (h : isRegisterToken t = true) :
    ∃ c, t.toList = [c] ∧ isRegisterName c = true := by
  unfold isRegisterToken at h
  split at h
  · rename_i c hc
    exact ⟨c, hc, h⟩
  · exact absurd h (by simp)

/-- One more token: it belongs to the register prefix, or it goes on what is typed behind it,
or no register has the name that was given. -/
theorem splitRegisterKeys_append (keys : List String) (t : String) :
    splitRegisterKeys (keys ++ [t]) = .invalid ∨
      (typedBody keys = [] ∧ isRegisterToken t = true) ∨
        ∃ register, splitRegisterKeys (keys ++ [t]) = .split register (typedBody keys ++ [t]) := by
  cases keys with
  | nil =>
    by_cases ht : t = "\""
    · exact .inr (.inl ⟨rfl, by rw [ht]; decide⟩)
    · exact .inr (.inr ⟨none, by simp [splitRegisterKeys, typedBody, ht]⟩)
  | cons first rest =>
    by_cases hq : first = "\""
    · subst hq
      cases rest with
      | nil =>
        cases hname : isRegisterToken t with
        | true => exact .inr (.inl ⟨rfl, rfl⟩)
        | false => exact .inl (by simp [splitRegisterKeys, hname])
      | cons name body =>
        cases hname : isRegisterToken name with
        | true =>
          refine .inr (.inr ⟨some name, ?_⟩)
          cases body with
          | nil => simp [splitRegisterKeys, typedBody, hname]
          | cons _ _ => simp [splitRegisterKeys, typedBody, hname]
        | false => exact .inl (by simp [splitRegisterKeys, hname])
    · exact .inr (.inr ⟨none, by simp [splitRegisterKeys, typedBody, hq]⟩)

namespace Keymap.LastKey

variable {m : Keymap} {keys : List String} {t : String}

theorem of_resolveBody {raw : String} {register : Option String}
    (h : m.resolveBody raw register (typedBody keys ++ [t]) ≠ .invalid) : m.LastKey keys t := by
  cases hparse : Phrase.parse (joinTokens (typedBody keys ++ [t])) with
  | some phrase => exact .phrase (by rw [hparse]; rfl)
  | none =>
    cases hpending : Phrase.isPending (joinTokens (typedBody keys ++ [t])) with
    | true => exact .beginning hpending
    | false =>
      refine .bound ?_
      simp only [Keymap.resolveBody, Keymap.phraseAction?, hparse, hpending, Option.bind_none] at h
      have hwalk : m.walk ((typedBody keys ++ [t]).dropWhile isDigitToken) ≠ .lost := by
        intro hlost
        simp [hlost] at h
      -- the walk begins behind a count, and ends in the last token
      rw [List.dropWhile_append] at hwalk
      split at hwalk
      · by_cases ht : isDigitToken t = true
        · rw [List.dropWhile_cons_of_pos ht] at hwalk
          exact absurd rfl hwalk
        · rw [List.dropWhile_cons_of_neg ht] at hwalk
          have hlast : m.walk ([] ++ [t]) ≠ .lost := hwalk
          exact mem_keys_of_walk hlast
      · exact mem_keys_of_walk hwalk

/-- **What the last token can be.** -/
theorem of_resolveKeys (h : m.resolveKeys (keys ++ [t]) ≠ .invalid) : m.LastKey keys t := by
  rcases splitRegisterKeys_append keys t with hs | ⟨hbody, ht⟩ | ⟨register, hs⟩
  · exact absurd (by rw [Keymap.resolveKeys, hs]) h
  · exact .register hbody ht
  · rw [Keymap.resolveKeys, hs] at h
    exact of_resolveBody h

/-- What the last character of the last token can be. -/
theorem ends (h : m.LastKey keys t) {front : List Char} {c : Char}
    (ht : t.toList = front ++ [c]) :
    (typedBody keys = [] ∧ front = [] ∧ isRegisterName c = true) ∨ t ∈ m.keys ∨
      Phrase.Ends ((joinTokens (typedBody keys)).toList ++ front) c := by
  have hjoin : joinTokens (typedBody keys ++ [t])
      = String.ofList (((joinTokens (typedBody keys)).toList ++ front) ++ [c]) := by
    rw [joinTokens, List.flatMap_append, List.flatMap_singleton, ht, toList_joinTokens,
      List.append_assoc]
  cases h with
  | register hbody hname =>
    obtain ⟨name, hsingle, hregister⟩ := exists_of_isRegisterToken hname
    rw [ht] at hsingle
    have hlast : front ++ [c] = [] ++ [name] := hsingle
    obtain ⟨hfront, rfl⟩ := List.append_singleton_inj.mp hlast
    exact .inl ⟨hbody, hfront, hregister⟩
  | bound hkey => exact .inr (.inl hkey)
  | phrase hparse =>
    rw [hjoin] at hparse
    exact .inr (.inr (Phrase.ends_of_parse hparse))
  | beginning hpending =>
    rw [hjoin] at hpending
    exact .inr (.inr (Phrase.ends_of_isPending hpending))

end Keymap.LastKey

/-- **Nothing comes of a key that has a name**, unless a keymap binds it: no phrase, no
beginning of one and no register prefix ends in an angle bracket. -/
theorem Keymap.resolveKeys_named {m : Keymap} {t : String} {front : List Char}
    (ht : t.toList = front ++ ['>']) (hunbound : t ∉ m.keys) (keys : List String) :
    m.resolveKeys (keys ++ [t]) = .invalid := by
  refine Decidable.byContradiction fun hr => ?_
  rcases (LastKey.of_resolveKeys hr).ends ht with ⟨-, -, hname⟩ | hkey | hends
  · exact absurd hname (by decide)
  · exact hunbound hkey
  · rcases hends with (halpha | hsign) | ⟨hword, -⟩
    · exact absurd halpha (by decide)
    · exact absurd hsign (by decide)
    · exact absurd hword (by decide +kernel)

/-- What is typed behind a register prefix is the same as text and as tokens. -/
theorem State.Gathered.bufferBody_eq {keymaps : Keymaps} {s : State} (h : s.Gathered keymaps) :
    bufferBody s.buffer = joinTokens (typedBody s.keys) := by
  rw [h.buffer]
  by_cases hne : s.keys = []
  · rw [hne]
    rfl
  · obtain ⟨-, m, -, hr⟩ := h.pending hne
    exact bufferBody_joinTokens h.tokens (splitRegisterKeys_ne_invalid hr)

end ModalStack
