/-
# Where a key is typed

The context of a key is what the user is busy with: the stack, a text field in one of its
cells, the command line, the search, a dialog, or some other control.  It is read off the
host's tree of elements: an element may carry a marker that says so, and otherwise the
nearest ancestor with a marker decides together with the kind of the element itself.

The tree is the host's, so nothing is assumed of it.  Parents may be missing or go round in a
circle, and only the first sixteen ancestors are asked.
-/
import ModalStack.Table

namespace ModalStack

/-- What the user is busy with when a key arrives. -/
inductive Context where
  /-- The stack itself. -/
  | stack
  /-- A text field in a cell. -/
  | cell
  /-- The command line. -/
  | commandLine
  /-- The search. -/
  | search
  /-- A modal dialog. -/
  | dialog
  /-- A button or some other control. -/
  | widget
  deriving DecidableEq

/-- What an element of the host's tree is. -/
inductive ElementKind where
  | textField
  | widget
  | other
  deriving DecidableEq

/-- What the kind of an element makes of the marker above it. -/
def ElementKind.within : ElementKind → Option Context → Context
  | .textField, some .dialog => .dialog
  | .textField, some .commandLine => .commandLine
  | .textField, some .search => .search
  | .textField, _ => .cell
  | .widget, some .dialog => .dialog
  | .widget, _ => .widget
  | .other, above => above.getD .stack

/-- The host's tree, as far as it answers questions. -/
structure ElementTree (ι : Type) where
  marker : ι → Option Context
  kind : ι → ElementKind
  parent : ι → Option ι

/-- How many ancestors are asked. -/
def ancestorLimit : Nat := 16

namespace ElementTree

variable {ι : Type}

/-! ## 1. Classifying an element -/

/-- The first marker on the way up from `element`, itself included, over at most `n`
elements. -/
def firstMarker (tree : ElementTree ι) : Nat → Option ι → Option Context
  | 0, _ => none
  | _ + 1, none => none
  | n + 1, some element => (tree.marker element).or (tree.firstMarker n (tree.parent element))

/-- The marker of the nearest ancestor that has one. -/
def nearestMarker (tree : ElementTree ι) (element : ι) : Option Context :=
  tree.firstMarker ancestorLimit (tree.parent element)

/-- The context of a key that an element receives. -/
def classify (tree : ElementTree ι) (element : ι) : Context :=
  (tree.marker element).getD ((tree.kind element).within (tree.nearestMarker element))

end ElementTree

/-! ## 2. Remembering the answer -/

/-- The contexts found since the focus last moved. -/
structure ContextCache (ι : Type) where
  found : Table ι Context

namespace ContextCache

variable {ι : Type}

/-- Nothing found yet. -/
def empty : ContextCache ι := ⟨.empty⟩

/-- How many contexts are remembered. -/
def size (cache : ContextCache ι) : Nat := cache.found.size

/-- The context of a key, remembered if it was asked for before.  A key without an element
belongs to the stack. -/
def resolve [DecidableEq ι] (cache : ContextCache ι) (tree : ElementTree ι) :
    Option ι → ContextCache ι × Context
  | none => (cache, .stack)
  | some element =>
    match cache.found.get? element with
    | some context => (cache, context)
    | none =>
      let context := tree.classify element
      (⟨cache.found.insert element context⟩, context)

/-- Forgets everything.  The host says so whenever the focus moves, since the tree may have
changed with it. -/
def focusChanged (_ : ContextCache ι) : ContextCache ι := empty

end ContextCache

end ModalStack
