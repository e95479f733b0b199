/-
# Cutting a text into clusters

What a reader takes for one character may be several: a letter with its accents, a syllable of
jamo, a family of emoji.  Where a text is cut between such clusters is laid down by a standard with
large tables, and both change from version to version.  So what cuts texts is not fixed here but
given, as a `Segmentation`, to whatever needs it.

A text loses its last cluster by being cut at the offset where that cluster begins.
-/
import ModalStack.Text.Bytes

namespace ModalStack.Text

/-- What cuts texts into clusters: the clusters of a text in order, each with the offset in bytes at
which it begins. -/
structure Segmentation where
  clustersOf : String → List (Nat × String)

/-- The text up to an offset.  Beyond its end there is nothing to take away, and a text is not cut
inside a character. -/
def truncate (text : String) (offset : Nat) : String :=
  match cut? text.toList offset with
  | .ok (front, _) => String.ofList front
  | .error _ => text

/-- The text without its last cluster. -/
def Segmentation.dropLast (segmentation : Segmentation) (text : String) : String :=
  match (segmentation.clustersOf text).getLast? with
  | some (offset, _) => truncate text offset
  | none => text

/-- Clusters one behind the other, with their offsets from some offset on. -/
def withOffsets (offset : Nat) : List (List Char) → List (Nat × String)
  | [] => []
  | g :: gs => (offset, String.ofList g) :: withOffsets (offset + byteSize g) gs

end ModalStack.Text
