/-
# Searching

A search is typed in a mode of its own.  Characters go to the end of the pattern, backspace
takes away its last cluster, the enter key submits it and the escape key abandons it.  The
last search that was submitted is remembered, and later motions go from match to match of it.
-/
import ModalStack.Key
import ModalStack.State

namespace ModalStack.State

/-! ## 1. The pattern -/

/-- A search begins, with an empty pattern. -/
def startSearch (s : State) (direction : Direction) : State :=
  { s.clearBuffer with
    mode := .search
    selection := none
    searchPattern := some ""
    searchDirection := some direction }

/-- The pattern grows at its end. -/
def appendToPattern (s : State) (text : String) : State :=
  { s with searchPattern := some (s.searchPattern.getD "" ++ text) }

/-- The pattern loses its last cluster. -/
def backspacePattern (s : State) (segmentation : Text.Segmentation := .unicode) : State :=
  { s with searchPattern := s.searchPattern.map segmentation.dropLast }

/-! ## 2. The two ways out -/

/-- The search is abandoned.  One that was submitted before stays remembered. -/
def cancelSearch (s : State) : State :=
  { s with mode := .normal, searchPattern := none, searchDirection := none }

/-- The search as it would be submitted: a pattern without a direction looks forward. -/
def currentQuery (s : State) : Query :=
  ⟨s.searchPattern.getD "", s.searchDirection.getD .forward⟩

/-- The search is submitted, unless its pattern is empty: then it is abandoned. -/
def submitSearch (s : State) : State × Option Command :=
  if s.currentQuery.pattern = "" then (s.cancelSearch, none)
  else
    ({ s with
        mode := .normal
        searchDirection := some s.currentQuery.direction
        lastSearch := some s.currentQuery },
      some (.search s.currentQuery))

/-- The wish to go to the next match of the last search, if there was one. -/
def nextMatch (s : State) (reverse : Bool) : Option Command :=
  s.lastSearch.map fun _ => .nextMatch reverse

/-! ## 3. Keys in search mode -/

/-- The press abandons a search: the escape key, or the opening bracket in a chord. -/
def abandonsSearch (press : KeyPress) : Bool :=
  press.code == .escape || press.code == .char '[' && press.mods.isChord

/-- A key press in search mode. -/
def searchPress (s : State) (press : KeyPress) (segmentation : Text.Segmentation := .unicode) :
    State × Option Command :=
  if abandonsSearch press then (s.cancelSearch, none)
  else if press.code = .enter then s.submitSearch
  else if press.code = .backspace then (s.backspacePattern segmentation, none)
  else
    match press.printable with
    | some c => (s.appendToPattern (String.singleton c), none)
    | none => (s, none)

/-- Any input in search mode.  A received character is always typed, even a control
character. -/
def searchInput (s : State) (input : Input) (segmentation : Text.Segmentation := .unicode) :
    State × Option Command :=
  match input with
  | .received c => (s.appendToPattern (String.singleton c), none)
  | .key press => s.searchPress press segmentation

end ModalStack.State
