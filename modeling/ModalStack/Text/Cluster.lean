/-
# A segmentation of texts

This is one segmentation that can be given where one is needed (`Segmentation.unicode`).  A text is
cut into extended grapheme clusters by deciding for every two neighbours whether they stay together.
The decision looks at the character to the right and at the text to the left, never further to the
right.  So one pass suffices, with a summary of the text read so far (`Left`).
-/
import ModalStack.Text.Cluster.Kind
import ModalStack.Text.Segmentation

namespace ModalStack.Text.Cluster

/-! ## 1. The text to the left -/

/-- How far an Indic conjunct has come. -/
inductive Conjunct where
  /-- The text does not end in a consonant and marks. -/
  | absent
  /-- It ends in a consonant and marks, none of which is a linker. -/
  | opened
  /-- It ends in a consonant and marks, with a linker among them. -/
  | linked
  deriving DecidableEq

/-- What a boundary decision needs to know of the text before it. -/
structure Left where
  /-- The kind of the last character, if there is one. -/
  last : Option Kind
  /-- The text ends in a pictograph and marks that extend it. -/
  pictograph : Bool
  /-- The text ends in a pictograph, marks that extend it, and a joiner. -/
  pictographJoined : Bool
  /-- The text ends in an odd number of halves of flags. -/
  halfFlag : Bool
  conjunct : Conjunct
  deriving DecidableEq

/-- No text yet. -/
def Left.empty : Left := ⟨none, false, false, false, .absent⟩

/-- Marks of the kind that extends the character before it. -/
def Kind.extends : Kind → Bool
  | .extend | .linker | .nonJoiner => true
  | _ => false

/-- Kinds that always begin and end a cluster, but for a line end of two characters. -/
def Kind.isHard : Kind → Bool
  | .carriageReturn | .lineFeed | .control => true
  | _ => false

/-- How far a conjunct has come after one more character. -/
def Conjunct.push (conjunct : Conjunct) : Kind → Conjunct
  | .consonant => .opened
  | .linker => if conjunct = .absent then .absent else .linked
  | .extend | .joiner => conjunct
  | _ => .absent

/-- The summary after one more character. -/
def Left.push (left : Left) (k : Kind) : Left where
  last := some k
  pictograph := k == .pictograph || left.pictograph && k.extends
  pictographJoined := left.pictograph && k == .joiner
  halfFlag := k == .regional && !left.halfFlag
  conjunct := left.conjunct.push k

/-! ## 2. The boundary rule -/

/-- Jamo and syllables that go on a syllable. -/
def joinsSyllable : Kind → Kind → Bool
  | .leading, .leading | .leading, .vowel => true
  | .leading, .openSyllable | .leading, .closedSyllable => true
  | .openSyllable, .vowel | .openSyllable, .trailing => true
  | .vowel, .vowel | .vowel, .trailing => true
  | .closedSyllable, .trailing | .trailing, .trailing => true
  | _, _ => false

/-- **The boundary rule.**  A character of kind `k` stays in the cluster that `left` ends in:
always, if it completes a line end of two characters; never otherwise next to a control
character; else if it goes on a syllable, is a mark, follows a sign written in front, or
completes a conjunct, a joined pictograph or a flag. -/
def Left.keeps (left : Left) (k : Kind) : Bool :=
  match left.last with
  | none => false
  | some last =>
    if last == .carriageReturn && k == .lineFeed then true
    else if last.isHard || k.isHard then false
    else joinsSyllable last k
      || k.extends || k == .joiner || k == .spacing
      || last == .prepended
      || (k == .consonant && left.conjunct == .linked)
      || (k == .pictograph && left.pictographJoined)
      || (k == .regional && left.halfFlag)

/-! ## 3. Clusters -/

/-- What of the text still belongs to the cluster that `left` ends in, and the clusters
after it. -/
def pieces (left : Left) : List Char → List Char × List (List Char)
  | [] => ([], [])
  | c :: rest =>
    let after := pieces (left.push (kind c)) rest
    if left.keeps (kind c) then (c :: after.1, after.2) else ([], (c :: after.1) :: after.2)

/-- The clusters of a text, in order. -/
def clusters (cs : List Char) : List (List Char) := (pieces .empty cs).2

theorem pieces_flatten (left : Left) (cs : List Char) :
    (pieces left cs).1 ++ (pieces left cs).2.flatten = cs := by
  induction cs generalizing left with
  | nil => rfl
  | cons c rest ih =>
    have h := ih (left.push (kind c))
    unfold pieces
    split <;> simp [h]

theorem pieces_empty_fst (cs : List Char) : (pieces .empty cs).1 = [] := by
  cases cs <;> rfl

/-- Cutting loses nothing. -/
theorem clusters_flatten (cs : List Char) : (clusters cs).flatten = cs := by
  have h := pieces_flatten .empty cs
  rwa [pieces_empty_fst, List.nil_append] at h

end ModalStack.Text.Cluster

namespace ModalStack.Text

/-- The segmentation into extended grapheme clusters, by the tables of Unicode 17. -/
def Segmentation.unicode : Segmentation where
  clustersOf text := withOffsets 0 (Cluster.clusters text.toList)

end ModalStack.Text
