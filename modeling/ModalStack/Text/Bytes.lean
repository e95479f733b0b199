/-
# Texts by their bytes

A text can be read by offsets that count bytes of its UTF-8 encoding.  Such an offset can lie
beyond the end, and it can lie inside a character, since characters take one to four bytes.  The
operations here check that, and fail with the reason.

Offsets between characters are those where the text can be cut (`cut?_eq_ok_iff`), and they are the
valid positions of a string (`isValid_iff_cut?`).  A byte of an ASCII character that stands at such
an offset is that character (`eq_of_head?_utf8EncodeChar`).
-/
import ModalStack.Text.Ranges

namespace ModalStack.Text

/-! ## 1. Offsets -/

/-- Why reading by offsets fails. -/
inductive OffsetFault where
  /-- The offset lies beyond the end of the text. -/
  | outside
  /-- The offset lies inside a character. -/
  | insideCharacter
  /-- Nothing was read, so that the same would be tried again for ever. -/
  | stuck
  deriving DecidableEq

/-- The bytes of a text. -/
def bytes (cs : List Char) : List UInt8 := cs.flatMap String.utf8EncodeChar

/-- How many bytes a text has. -/
def byteSize (cs : List Char) : Nat := (bytes cs).length

/-- The byte of an ASCII character. -/
def asciiByte (c : Char) : UInt8 := UInt8.ofNat c.toNat

/-- The byte at an offset. -/
def byteAt? (cs : List Char) (offset : Nat) : Except OffsetFault UInt8 :=
  match (bytes cs)[offset]? with
  | some b => .ok b
  | none => .error .outside

/-- The text in front of an offset, and the text behind it. -/
def cut? : List Char → Nat → Except OffsetFault (List Char × List Char)
  | cs, 0 => .ok ([], cs)
  | [], _ + 1 => .error .outside
  | c :: cs, n + 1 =>
    if c.utf8Size ≤ n + 1 then
      (cut? cs (n + 1 - c.utf8Size)).map fun (front, rest) => (c :: front, rest)
    else .error .insideCharacter

/-- The text from one offset to another. -/
def slice? (cs : List Char) (start stop : Nat) : Except OffsetFault (List Char) := do
  let (front, _) ← cut? cs stop
  let (_, piece) ← cut? front start
  return piece

/-- The offset at which a character stands first. -/
def offsetOf? (c : Char) (cs : List Char) : Option Nat :=
  if c ∈ cs then some (byteSize (cs.takeWhile (· ≠ c))) else none

/-! ## 2. Sizes -/

@[simp] theorem byteSize_nil : byteSize [] = 0 := rfl

@[simp] theorem byteSize_cons (c : Char) (cs : List Char) :
    byteSize (c :: cs) = c.utf8Size + byteSize cs := by
  simp [byteSize, bytes]

theorem byteSize_append (cs ds : List Char) : byteSize (cs ++ ds) = byteSize cs + byteSize ds := by
  simp [byteSize, bytes]

theorem byteSize_pos {cs : List Char} (h : cs ≠ []) : 0 < byteSize cs := by
  obtain ⟨c, rest, rfl⟩ := List.exists_cons_of_ne_nil h
  have hc : 0 < c.utf8Size := c.utf8Size_pos
  rw [byteSize_cons]
  omega

theorem byteSize_toList (s : String) : byteSize s.toList = s.utf8ByteSize := by
  have hsize : (String.ofList s.toList).toByteArray.size = byteSize s.toList := by
    rw [String.toByteArray_ofList, List.utf8Encode, List.size_toByteArray]
    rfl
  rw [← hsize, String.ofList_toList, String.size_toByteArray]

/-! ## 3. Where a text can be cut -/

variable {cs front rest piece : List Char} {n : Nat}

theorem cut?_zero (cs : List Char) : cut? cs 0 = .ok ([], cs) := by
  cases cs <;> rfl

theorem cut?_append (front rest : List Char) :
    cut? (front ++ rest) (byteSize front) = .ok (front, rest) := by
  induction front with
  | nil => exact cut?_zero rest
  | cons c front ih =>
    obtain ⟨n, hn⟩ : ∃ n, c.utf8Size + byteSize front = n + 1 :=
      Nat.exists_eq_add_one.mpr (Nat.add_pos_left c.utf8Size_pos _)
    have hfront : n + 1 - c.utf8Size = byteSize front := by omega
    rw [List.cons_append, byteSize_cons, hn, cut?, if_pos (by omega), hfront, ih]
    rfl

/-- **A text is cut between characters**, and nowhere else. -/
theorem cut?_eq_ok_iff :
    cut? cs n = .ok (front, rest) ↔ cs = front ++ rest ∧ n = byteSize front := by
  constructor
  · intro h
    fun_induction cut? cs n generalizing front with
    | case1 cs =>
      obtain ⟨rfl, rfl⟩ := Prod.mk.inj (Except.ok.inj h)
      exact ⟨rfl, rfl⟩
    | case2 n => exact absurd h (by simp)
    | case3 c cs n hle ih =>
      cases hcut : cut? cs (n + 1 - c.utf8Size) with
      | error fault =>
        rw [hcut] at h
        exact absurd h (by simp [Except.map])
      | ok pair =>
        rw [hcut] at h
        obtain ⟨hfront, hrest⟩ := Prod.mk.inj (Except.ok.inj h)
        have hpair : cut? cs (n + 1 - c.utf8Size) = .ok (pair.1, rest) := by rw [hcut, ← hrest]
        obtain ⟨hcs, hn⟩ := ih hpair
        rw [← hfront, byteSize_cons, hcs]
        exact ⟨rfl, by omega⟩
    | case4 c cs n hlt => exact absurd h (by simp)
  · rintro ⟨rfl, rfl⟩
    exact cut?_append front rest

/-- The offsets at which a text can be cut are the valid positions of the string. -/
theorem isValid_iff_cut? (s : String) (n : Nat) :
    (⟨n⟩ : String.Pos.Raw).IsValid s ↔ ∃ front rest, cut? s.toList n = .ok (front, rest) := by
  simp only [cut?_eq_ok_iff]
  rw [String.Pos.Raw.isValid_iff_exists_append]
  constructor
  · rintro ⟨s₁, s₂, rfl, hn⟩
    refine ⟨s₁.toList, s₂.toList, String.toList_append, ?_⟩
    rw [byteSize_toList]
    exact congrArg String.Pos.Raw.byteIdx hn
  · rintro ⟨front, rest, hs, rfl⟩
    refine ⟨String.ofList front, String.ofList rest, ?_, ?_⟩
    · rw [← String.ofList_append, ← hs, String.ofList_toList]
    · have hfront : byteSize front = (String.ofList front).utf8ByteSize := by
        rw [← byteSize_toList, String.toList_ofList]
      rw [hfront]
      rfl

theorem slice?_append (front piece rest : List Char) :
    slice? (front ++ piece ++ rest) (byteSize front) (byteSize (front ++ piece)) = .ok piece := by
  rw [slice?, cut?_append]
  exact congrArg (Except.map Prod.snd) (cut?_append front piece)

/-! ## 4. Bytes of ASCII characters -/

theorem utf8EncodeChar_of_isAscii {c : Char} (h : isAscii c = true) :
    String.utf8EncodeChar c = [asciiByte c] :=
  if_pos (Nat.le_of_lt_succ (of_decide_eq_true h))

theorem utf8Size_of_isAscii {c : Char} (h : isAscii c = true) : c.utf8Size = 1 := by
  rw [← String.length_utf8EncodeChar, utf8EncodeChar_of_isAscii h]
  rfl

theorem toNat_asciiByte {c : Char} (h : isAscii c = true) : (asciiByte c).toNat = c.toNat := by
  have hc : c.toNat < 128 := of_decide_eq_true h
  rw [asciiByte, UInt8.toNat_ofNat']
  omega

/-- **No other character begins with the byte of an ASCII character.** -/
theorem eq_of_head?_utf8EncodeChar {c d : Char} (hd : isAscii d = true)
    (h : (String.utf8EncodeChar c).head? = some (asciiByte d)) : c = d := by
  have hbound : d.toNat < 128 := of_decide_eq_true hd
  have hbyte : ∀ n, some (UInt8.ofNat n) = some (asciiByte d) → n % 256 = d.toNat := by
    intro n heq
    rw [← toNat_asciiByte hd, ← Option.some.inj heq, UInt8.toNat_ofNat']
  have hc : c.toNat = d.toNat := by
    unfold String.utf8EncodeChar at h
    dsimp only at h
    split at h
    · rename_i hle
      have hone : c.toNat % 256 = d.toNat := hbyte _ h
      have hle : c.toNat ≤ 127 := hle
      omega
    -- a longer encoding begins with a byte of 192 or more
    · split at h
      · have hmany := hbyte _ h
        omega
      · split at h
        · have hmany := hbyte _ h
          omega
        · have hmany := hbyte _ h
          omega
  rw [← Char.ofNat_toNat c, hc, Char.ofNat_toNat]

/-- Between characters, the byte that comes next is the first one of the next character. -/
theorem byteAt?_append (front : List Char) (c : Char) (rest : List Char) :
    ∃ b, (String.utf8EncodeChar c).head? = some b ∧
      byteAt? (front ++ c :: rest) (byteSize front) = .ok b := by
  obtain ⟨b, more, hbytes⟩ := List.exists_cons_of_ne_nil (@String.utf8EncodeChar_ne_nil c)
  refine ⟨b, by rw [hbytes]; rfl, ?_⟩
  have hat : (bytes (front ++ c :: rest))[byteSize front]? = some b := by
    have hlength : (front.flatMap String.utf8EncodeChar).length ≤ byteSize front := Nat.le_refl _
    rw [bytes, List.flatMap_append, List.flatMap_cons, hbytes, List.getElem?_append_right hlength,
      byteSize, bytes, Nat.sub_self]
    rfl
  simp only [byteAt?, hat]

/-- **An ASCII character is recognised by its byte**, between characters. -/
theorem byteAt?_eq_asciiByte_iff {c d : Char} (hd : isAscii d = true) :
    byteAt? (front ++ c :: rest) (byteSize front) = .ok (asciiByte d) ↔ c = d := by
  obtain ⟨b, hhead, hbyte⟩ := byteAt?_append front c rest
  rw [hbyte]
  constructor
  · intro h
    rw [Except.ok.inj h] at hhead
    exact eq_of_head?_utf8EncodeChar hd hhead
  · rintro rfl
    rw [utf8EncodeChar_of_isAscii hd] at hhead
    rw [Option.some.inj hhead]

end ModalStack.Text
