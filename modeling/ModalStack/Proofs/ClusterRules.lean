/-
# The rules for clusters

Where a text is cut into extended grapheme clusters is laid down in a list of rules, of which the
first that applies to a place decides it (`IsBoundary`).  A rule looks at the text in front of the
place and at the one character behind it, and it knows characters by their properties alone.  The
properties come from tables that grow with each version of Unicode, so they are given here
(`Properties`) and nothing is said of any one character.  A version without the rule for conjuncts
is one in whose tables no character has a part in them.

A segmentation follows the rules (`Segmentation.Follows`) if its clusters make up the text, stand
where they say, and begin at the boundaries and nowhere else.  This is all that is used of a
segmentation, and it comes to a description of the clusters one behind the other (`AreClusters`).
Only one list of clusters of a text is of that kind (`AreClusters.unique`).
-/
import Mathlib.Data.List.DropRight
import ModalStack.Text.Segmentation

namespace ModalStack.Text

namespace Cluster

/-! ## 1. Properties of characters -/

/-- What a character is to most of the rules. -/
inductive BreakClass where
  | other | carriageReturn | lineFeed | control | extend | joiner | regional | prepended | spacing
  | leading | vowel | trailing | openSyllable | closedSyllable
  deriving DecidableEq

/-- What a character is to an Indic conjunct. -/
inductive ConjunctClass where
  | other | consonant | extend | linker
  deriving DecidableEq

/-- The properties of all characters, by the tables of some version. -/
structure Properties where
  breakClass : Char → BreakClass
  conjunctClass : Char → ConjunctClass
  pictographic : Char → Prop

/-! ## 2. The rules -/

/-- The text has a last character, with this property. -/
def EndsIn (property : Char → Prop) (before : List Char) : Prop :=
  ∃ front c, before = front ++ [c] ∧ property c

namespace Properties

variable (p : Properties)

/-- The text ends in a consonant and signs of a conjunct, with a linker among them. -/
def EndsInConjunct (before : List Char) : Prop :=
  ∃ front c signs, before = front ++ c :: signs ∧ p.conjunctClass c = .consonant ∧
    (∀ sign ∈ signs, p.conjunctClass sign = .extend ∨ p.conjunctClass sign = .linker) ∧
    ∃ sign ∈ signs, p.conjunctClass sign = .linker

/-- The text ends in a pictograph, marks that extend it, and a joiner. -/
def EndsInJoinedPictograph (before : List Char) : Prop :=
  ∃ front c marks joiner, before = front ++ c :: (marks ++ [joiner]) ∧ p.pictographic c ∧
    (∀ mark ∈ marks, p.breakClass mark = .extend) ∧ p.breakClass joiner = .joiner

/-- The text ends in the first half of a flag, that is in an odd number of halves. -/
def EndsInHalfFlag (before : List Char) : Prop :=
  (before.rtakeWhile fun c => p.breakClass c = .regional).length % 2 = 1

/-- Characters that are clusters by themselves, line ends of two characters apart. -/
def IsHard (c : Char) : Prop :=
  p.breakClass c = .carriageReturn ∨ p.breakClass c = .lineFeed ∨ p.breakClass c = .control

end Properties

/-- A rule about places in texts: to which it applies, by the text in front of the place and the
character behind it, and whether it makes them boundaries. -/
structure Rule where
  front : List Char → Prop
  next : Char → Prop
  cuts : Bool

/-- The rule is about this place. -/
def Rule.Applies (r : Rule) (before : List Char) (c : Char) : Prop := r.front before ∧ r.next c

/-- **The first rule that applies decides.**  A place that no rule is about is a boundary. -/
def IsBoundary : List Rule → List Char → Char → Prop
  | [], _, _ => True
  | r :: rest, before, c =>
    r.Applies before c ∧ r.cuts = true ∨ ¬ r.Applies before c ∧ IsBoundary rest before c

namespace Properties

variable (p : Properties)

/-- The rules that are tried first.  A text begins with a boundary, and before and behind line ends
and control characters there is one, but not inside a line end of two characters. -/
def cuttingRules : List Rule :=
  -- GB1, GB3
  [⟨(· = []), fun _ => True, true⟩,
   ⟨EndsIn (p.breakClass · = .carriageReturn), (p.breakClass · = .lineFeed), false⟩,
   -- GB4, GB5
   ⟨EndsIn p.IsHard, fun _ => True, true⟩,
   ⟨fun _ => True, p.IsHard, true⟩]

/-- The rules that keep two characters together. -/
def keepingRules : List Rule :=
  -- GB6, GB7 and GB8: syllables of jamo
  [⟨EndsIn (p.breakClass · = .leading), fun c => p.breakClass c = .leading ∨
      p.breakClass c = .vowel ∨ p.breakClass c = .openSyllable ∨ p.breakClass c = .closedSyllable,
      false⟩,
   ⟨EndsIn fun a => p.breakClass a = .openSyllable ∨ p.breakClass a = .vowel,
      fun c => p.breakClass c = .vowel ∨ p.breakClass c = .trailing, false⟩,
   ⟨EndsIn fun a => p.breakClass a = .closedSyllable ∨ p.breakClass a = .trailing,
      (p.breakClass · = .trailing), false⟩,
   -- GB9, GB9a and GB9b: marks and signs, before or behind any character
   ⟨fun _ => True, fun c => p.breakClass c = .extend ∨ p.breakClass c = .joiner, false⟩,
   ⟨fun _ => True, (p.breakClass · = .spacing), false⟩,
   ⟨EndsIn (p.breakClass · = .prepended), fun _ => True, false⟩,
   -- GB9c: conjuncts
   ⟨p.EndsInConjunct, (p.conjunctClass · = .consonant), false⟩,
   -- GB11: joined pictographs
   ⟨p.EndsInJoinedPictograph, p.pictographic, false⟩,
   -- GB12 and GB13: flags
   ⟨p.EndsInHalfFlag, (p.breakClass · = .regional), false⟩]

/-- **The rules**, in the order in which they are tried. -/
def rules : List Rule := p.cuttingRules ++ p.keepingRules

/-- The place between a text and the character behind it is a boundary. -/
def Boundary (before : List Char) (c : Char) : Prop := IsBoundary p.rules before c

end Properties

end Cluster

open Cluster

/-- The text of some clusters. -/
def textOf (clusters : List (Nat × String)) : List Char :=
  clusters.flatMap fun cluster => cluster.2.toList

theorem textOf_append (front back : List (Nat × String)) :
    textOf (front ++ back) = textOf front ++ textOf back := List.flatMap_append

theorem textOf_singleton (offset : Nat) (g : String) : textOf [(offset, g)] = g.toList :=
  List.flatMap_singleton _ _

/-- **The segmentation follows the rules**, for characters with these properties. -/
structure Segmentation.Follows (segmentation : Segmentation) (p : Properties) : Prop where
  /-- The clusters make up the text. -/
  textOf_eq : ∀ text, textOf (segmentation.clustersOf text) = text.toList
  /-- None of them is empty. -/
  ne_empty : ∀ text offset g, (offset, g) ∈ segmentation.clustersOf text → g ≠ ""
  /-- Each stands right behind those in front of it. -/
  offset_eq : ∀ text front offset g back,
    segmentation.clustersOf text = front ++ (offset, g) :: back → offset = byteSize (textOf front)
  /-- They begin at the boundaries, and nowhere else. -/
  begins_iff : ∀ text before c after, text.toList = before ++ c :: after →
    ((∃ g, (byteSize before, g) ∈ segmentation.clustersOf text) ↔ p.Boundary before c)

/-! ## 3. Clusters one behind the other -/

namespace Cluster

variable {p : Properties} {before front cs more : List Char} {c : Char} {gs gs' : List (List Char)}
  {offset : Nat}

/-- Behind this text come no boundaries in those characters. -/
def Stay (p : Properties) (before more : List Char) : Prop :=
  ∀ front c rest, more = front ++ c :: rest → ¬ p.Boundary (before ++ front) c

theorem stay_nil (p : Properties) (before : List Char) : Stay p before [] :=
  fun _ _ _ h => absurd h (by simp)

theorem Stay.cons (h : Stay p (before ++ [c]) more) (hc : ¬ p.Boundary before c) :
    Stay p before (c :: more) := by
  rintro (_ | ⟨c', front⟩) d rest hsplit
  · obtain ⟨rfl, -⟩ := List.cons.inj hsplit
    rwa [List.append_nil]
  · obtain ⟨rfl, rfl⟩ := List.cons.inj hsplit
    have hinside := h front d rest rfl
    rwa [List.append_assoc, List.singleton_append] at hinside

/-- **These are clusters** behind some text: each begins at a boundary, and has no other in it. -/
inductive AreClusters (p : Properties) : List Char → List (List Char) → Prop
  | nil {before : List Char} : AreClusters p before []
  | cons {before : List Char} {c : Char} {more : List Char} {gs : List (List Char)} :
      p.Boundary before c → Stay p (before ++ [c]) more → AreClusters p (before ++ c :: more) gs →
      AreClusters p before ((c :: more) :: gs)

/-- **Leading clusters are clusters**, for whether there is a boundary is settled in front of it. -/
theorem AreClusters.take (h : AreClusters p before gs) (n : Nat) :
    AreClusters p before (gs.take n) := by
  induction h generalizing n with
  | nil => rw [List.take_nil]; exact .nil
  | cons hcut hstay _ ih =>
    cases n with
    | zero => exact .nil
    | succ n => exact .cons hcut hstay (ih n)

theorem AreClusters.ne_nil (h : AreClusters p before gs) : ∀ g ∈ gs, g ≠ [] := by
  induction h with
  | nil => exact fun _ hg => absurd hg (by simp)
  | cons _ _ _ ih => exact List.forall_mem_cons.mpr ⟨List.cons_ne_nil _ _, ih⟩

theorem AreClusters.boundary_of_cons (h : AreClusters p before gs) {rest : List Char}
    (hflatten : gs.flatten = c :: rest) : p.Boundary before c := by
  cases h with
  | nil => exact absurd hflatten (by simp)
  | cons hcut _ _ =>
    rw [List.flatten_cons, List.cons_append] at hflatten
    rwa [← (List.cons.inj hflatten).1]

/-- What stays does not go on behind a boundary. -/
theorem Stay.eq_nil {rest : List Char} (h : Stay p before (more ++ cs))
    (hcut : ∀ c after, cs ++ rest = c :: after → p.Boundary (before ++ more) c) : cs = [] := by
  cases cs with
  | nil => rfl
  | cons c cs => exact absurd (hcut c (cs ++ rest) rfl) (h more c cs rfl)

/-- **There are no other clusters of the same text.** -/
theorem AreClusters.unique (h : AreClusters p before gs) (h' : AreClusters p before gs')
    (heq : gs.flatten = gs'.flatten) : gs = gs' := by
  induction h generalizing gs' with
  | nil =>
    cases h' with
    | nil => rfl
    | cons _ _ _ => exact absurd heq (by simp)
  | @cons before c more gs hcut hstay hgs ih =>
    cases h' with
    | nil => exact absurd heq (by simp)
    | @cons _ c' more' gs' hcut' hstay' hgs' =>
      rw [List.flatten_cons, List.flatten_cons, List.cons_append, List.cons_append] at heq
      obtain ⟨rfl, htail⟩ := List.cons.inj heq
      obtain rfl : more = more' := by
        -- the longer of the two would go on behind the boundary at which the other ends
        rcases List.append_eq_append_iff.mp htail with ⟨rest, rfl, hrest⟩ | ⟨rest, rfl, hrest⟩
        · have hnil : rest = [] := hstay'.eq_nil fun d after hafter => by
            rw [← hrest] at hafter
            simpa using hgs.boundary_of_cons hafter
          rw [hnil, List.append_nil]
        · have hnil : rest = [] := hstay.eq_nil fun d after hafter => by
            rw [← hrest] at hafter
            simpa using hgs'.boundary_of_cons hafter
          rw [hnil, List.append_nil]
      rw [ih hgs' (List.append_cancel_left htail)]

/-! ## 4. Clusters with their offsets -/

theorem map_withOffsets (offset : Nat) (gs : List (List Char)) :
    (withOffsets offset gs).map (fun cluster => cluster.2.toList) = gs := by
  induction gs generalizing offset with
  | nil => rfl
  | cons g gs ih => simp [withOffsets, ih]

theorem textOf_withOffsets (offset : Nat) (gs : List (List Char)) :
    textOf (withOffsets offset gs) = gs.flatten := by
  rw [textOf, List.flatMap_def, map_withOffsets]

theorem take_withOffsets (offset n : Nat) (gs : List (List Char)) :
    (withOffsets offset gs).take n = withOffsets offset (gs.take n) := by
  induction gs generalizing offset n with
  | nil => simp [withOffsets]
  | cons g gs ih =>
    cases n with
    | zero => rfl
    | succ n => simp [withOffsets, ih]

theorem le_of_mem_withOffsets {n : Nat} {g : String} (h : (n, g) ∈ withOffsets offset gs) :
    offset ≤ n := by
  induction gs generalizing offset with
  | nil => exact absurd h (by simp [withOffsets])
  | cons g' gs ih =>
    rcases List.mem_cons.mp h with heq | hmem
    · exact Nat.le_of_eq (Prod.mk.inj heq).1.symm
    · exact Nat.le_trans (Nat.le_add_right _ _) (ih hmem)

theorem offset_of_withOffsets {first n : Nat} {g : String} {front back : List (Nat × String)}
    (h : withOffsets first gs = front ++ (n, g) :: back) :
    n = first + byteSize (textOf front) := by
  induction gs generalizing first front with
  | nil => exact absurd h (by simp [withOffsets])
  | cons g' gs ih =>
    cases front with
    | nil => exact (Prod.mk.inj (List.cons.inj h).1).1.symm
    | cons cluster front =>
      obtain ⟨rfl, htail⟩ := List.cons.inj h
      rw [ih htail, ← List.singleton_append, textOf_append, textOf_singleton, byteSize_append,
        String.toList_ofList, Nat.add_assoc]

theorem mem_withOffsets_cons {n : Nat} {g : List Char} (hlt : offset < n) :
    (∃ g', (n, g') ∈ withOffsets offset (g :: gs)) ↔
      ∃ g', (n, g') ∈ withOffsets (offset + byteSize g) gs := by
  constructor
  · rintro ⟨g', hmem⟩
    rcases List.mem_cons.mp hmem with heq | hmem
    · exact absurd (Prod.mk.inj heq).1 (by omega)
    · exact ⟨g', hmem⟩
  · rintro ⟨g', hmem⟩
    exact ⟨g', List.mem_cons_of_mem _ hmem⟩

/-- **Clusters begin at the boundaries**, and nowhere else. -/
theorem AreClusters.begins_iff (h : AreClusters p before gs) {rest : List Char}
    (hsplit : gs.flatten = front ++ c :: rest) :
    (∃ g, (byteSize (before ++ front), g) ∈ withOffsets (byteSize before) gs) ↔
      p.Boundary (before ++ front) c := by
  induction h generalizing front with
  | nil => exact absurd hsplit (by simp)
  | @cons before d more gs hcut hstay _ ih =>
    rw [List.flatten_cons, List.cons_append] at hsplit
    cases front with
    | nil =>
      obtain ⟨rfl, -⟩ := List.cons.inj hsplit
      rw [List.append_nil]
      exact iff_of_true ⟨_, List.mem_cons_self⟩ hcut
    | cons d' front =>
      obtain ⟨rfl, htail⟩ := List.cons.inj hsplit
      have hsize : byteSize (before ++ d :: front)
          = byteSize before + (d.utf8Size + byteSize front) := by
        rw [byteSize_append, byteSize_cons]
      have hpos : 0 < d.utf8Size := d.utf8Size_pos
      rw [mem_withOffsets_cons (by omega), ← byteSize_append]
      have hbehind : ∀ start, front = more ++ start → gs.flatten = start ++ c :: rest →
          ((∃ g, (byteSize (before ++ d :: front), g) ∈
              withOffsets (byteSize (before ++ d :: more)) gs) ↔
            p.Boundary (before ++ d :: front) c) := by
        rintro start rfl hstart
        have hiff := ih hstart
        rwa [List.append_assoc, List.cons_append] at hiff
      rcases List.append_eq_append_iff.mp htail with ⟨start, hfront, hstart⟩ | ⟨tail, rfl, hback⟩
      · exact hbehind start hfront hstart
      · cases tail with
        | nil => exact hbehind [] (by simp) (by simpa using hback.symm)
        | cons c' tail =>
          -- inside the cluster there is no boundary, and all other clusters stand behind it
          obtain ⟨rfl, -⟩ := List.cons.inj hback
          refine iff_of_false ?_ ?_
          · rintro ⟨g, hmem⟩
            have hle := le_of_mem_withOffsets hmem
            have hc : 0 < c.utf8Size := c.utf8Size_pos
            rw [hsize, byteSize_append, byteSize_cons, byteSize_append, byteSize_cons] at hle
            omega
          · have hinside := hstay front c tail rfl
            rwa [List.append_assoc, List.singleton_append] at hinside

end Cluster

namespace Segmentation.Follows

variable {segmentation : Segmentation} {p : Properties}

/-- What stands where it says is put together from its clusters. -/
theorem eq_withOffsets (h : segmentation.Follows p) {text : String}
    {front back : List (Nat × String)} (hsplit : segmentation.clustersOf text = front ++ back) :
    back = withOffsets (byteSize (textOf front)) (back.map fun cluster => cluster.2.toList) := by
  induction back generalizing front with
  | nil => rfl
  | cons cluster back ih =>
    obtain ⟨offset, g⟩ := cluster
    have hoffset : offset = byteSize (textOf front) := h.offset_eq text front offset g back hsplit
    have hnext := @ih (front ++ [(offset, g)]) (by rw [hsplit, List.append_assoc]; rfl)
    rw [textOf_append, textOf_singleton, byteSize_append] at hnext
    rw [List.map_cons, withOffsets, ← hnext, String.ofList_toList, hoffset]

/-- Clusters do not stand inside one another. -/
theorem offset_le_or_le (h : segmentation.Follows p) {text : String}
    {front back : List (Nat × String)} {offset n : Nat} {g g' : String}
    (hsplit : segmentation.clustersOf text = front ++ (offset, g) :: back)
    (hmem : (n, g') ∈ segmentation.clustersOf text) :
    n ≤ byteSize (textOf front) ∨ byteSize (textOf front) + byteSize g.toList ≤ n := by
  rw [hsplit] at hmem
  rcases List.mem_append.mp hmem with hmem | hmem
  · obtain ⟨first, last, rfl⟩ := List.append_of_mem hmem
    have hn : n = byteSize (textOf first) :=
      h.offset_eq text first n g' (last ++ (offset, g) :: back) (by rw [hsplit]; simp)
    rw [textOf_append, byteSize_append]
    omega
  · rcases List.mem_cons.mp hmem with heq | hmem
    · obtain ⟨rfl, -⟩ := Prod.mk.inj heq
      exact .inl (Nat.le_of_eq (h.offset_eq text front n g back hsplit))
    · have hsplit' : segmentation.clustersOf text = (front ++ [(offset, g)]) ++ back := by
        rw [hsplit, List.append_assoc]
        rfl
      rw [h.eq_withOffsets hsplit', textOf_append, textOf_singleton, byteSize_append] at hmem
      exact .inr (le_of_mem_withOffsets hmem)

/-- **The clusters of a segmentation that follows the rules**, from any of them on. -/
theorem areClusters (h : segmentation.Follows p) {text : String}
    {front back : List (Nat × String)} (hsplit : segmentation.clustersOf text = front ++ back) :
    AreClusters p (textOf front) (back.map fun cluster => cluster.2.toList) := by
  induction back generalizing front with
  | nil => exact .nil
  | cons cluster back ih =>
    obtain ⟨offset, g⟩ := cluster
    have hmem : (offset, g) ∈ segmentation.clustersOf text := by
      rw [hsplit]
      exact List.mem_append_right _ List.mem_cons_self
    have hne : g.toList ≠ [] := fun hnil =>
      h.ne_empty text offset g hmem (String.toList_eq_nil_iff.mp hnil)
    obtain ⟨c, more, hg⟩ := List.exists_cons_of_ne_nil hne
    have htext : text.toList = textOf front ++ (c :: more ++ textOf back) := by
      rw [← h.textOf_eq, hsplit, textOf_append, ← hg]
      rfl
    have hnext := @ih (front ++ [(offset, g)]) (by rw [hsplit, List.append_assoc]; rfl)
    rw [textOf_append, textOf_singleton, hg] at hnext
    have hoffset := h.offset_eq text front offset g back hsplit
    simp only [List.map_cons, hg]
    refine .cons ?_ ?_ hnext
    · exact (h.begins_iff text (textOf front) c _ htext).mp ⟨g, hoffset ▸ hmem⟩
    · rintro inside d rest rfl hboundary
      have hsplit' : text.toList
          = (textOf front ++ [c] ++ inside) ++ d :: (rest ++ textOf back) := by
        rw [htext]
        simp
      obtain ⟨g', hmem'⟩ := (h.begins_iff text _ d _ hsplit').mpr hboundary
      -- a cluster would begin inside this one
      have hc : 0 < c.utf8Size := c.utf8Size_pos
      have hd : 0 < d.utf8Size := d.utf8Size_pos
      rcases h.offset_le_or_le hsplit hmem' with hle | hle
      all_goals
        simp only [hg, byteSize_append, byteSize_cons, byteSize_nil] at hle
        omega

end Segmentation.Follows

/-- **To follow the rules** is to give the clusters of each text, one right behind the other. -/
theorem Segmentation.follows_iff {segmentation : Segmentation} {p : Properties} :
    segmentation.Follows p ↔ ∀ text, ∃ gs, segmentation.clustersOf text = withOffsets 0 gs ∧
      gs.flatten = text.toList ∧ AreClusters p [] gs := by
  constructor
  · intro h text
    have hsplit : segmentation.clustersOf text = [] ++ segmentation.clustersOf text := rfl
    refine ⟨_, h.eq_withOffsets hsplit, ?_, h.areClusters hsplit⟩
    rw [← h.textOf_eq, textOf, List.flatMap_def]
  · intro h
    refine ⟨?_, ?_, ?_, ?_⟩
    · intro text
      obtain ⟨gs, hclusters, hflatten, -⟩ := h text
      rw [hclusters, textOf_withOffsets, hflatten]
    · intro text offset g hmem
      obtain ⟨gs, hclusters, -, hgs⟩ := h text
      rw [hclusters] at hmem
      have hg : g.toList ∈ gs := by
        rw [← map_withOffsets 0 gs]
        exact List.mem_map_of_mem hmem
      rintro rfl
      exact hgs.ne_nil _ hg rfl
    · intro text front offset g back hsplit
      obtain ⟨gs, hclusters, -, -⟩ := h text
      rw [hclusters] at hsplit
      rw [offset_of_withOffsets hsplit, Nat.zero_add]
    · intro text before c after hsplit
      obtain ⟨gs, hclusters, hflatten, hgs⟩ := h text
      rw [hclusters]
      exact hgs.begins_iff (hflatten.trans hsplit)

end ModalStack.Text
