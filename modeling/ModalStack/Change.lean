/-
# Repeatable changes

The last change is remembered, so that it can be repeated.  What counts as a change is a
grammar of its own over the keys of a command without its register: numerals may be of any
script, and stand for themselves only.  With `n` and `m` for numerals it has, each perhaps
after a numeral or a range `n,m` and perhaps before a target `ng`, the operators

    dd d xx x X D    yy y Y    cc c C

and, each perhaps after a numeral,

    p P    o O    s S    r and perhaps one word character
-/
import ModalStack.Phrase.Pending
import ModalStack.State

namespace ModalStack

namespace Change

open Phrase (leadingDecimals afterDecimals)

/-! ## 1. The grammar -/

/-- What follows a numeral or a range at the beginning of a text, or the text itself if it
begins with neither. -/
def afterRange (cs : List Char) : List Char :=
  if leadingDecimals cs = [] then cs
  else
    match afterDecimals cs with
    | ',' :: more => if leadingDecimals more = [] then ',' :: more else afterDecimals more
    | rest => rest

/-- A target, `ng`. -/
def isTarget (cs : List Char) : Bool := leadingDecimals cs ≠ [] && afterDecimals cs = ['g']

/-- The operators that take a range before them and a target after them. -/
def rangeOperators : List (List Char) :=
  [['d', 'd'], ['d'], ['x', 'x'], ['x'], ['X'], ['D'],
   ['y', 'y'], ['y'], ['Y'],
   ['c', 'c'], ['c'], ['C']]

/-- The text is this operator, perhaps with a target after it. -/
def isOperatorText (operator cs : List Char) : Bool :=
  operator.isPrefixOf cs &&
    (cs.drop operator.length = [] || isTarget (cs.drop operator.length))

/-- The operators that take a numeral before them, and nothing after. -/
def countOperators : List Char := ['p', 'P', 'o', 'O', 's', 'S']

/-- What may follow a numeral in the second group of forms. -/
def isCountedText : List Char → Bool
  | [c] => c ∈ countOperators || c = 'r'
  | ['r', c] => Text.isWord c
  | _ => false

/-- The keys of a command that can be repeated. -/
def isRepeatable (command : String) : Bool :=
  rangeOperators.any (fun op => isOperatorText op (afterRange command.toList))
    || isCountedText (afterDecimals command.toList)

end Change

/-! ## 2. Remembering and repeating -/

namespace State

/-- Remembers a command if it can be repeated. -/
def recordChange (s : State) (command : String) (count : Option Nat)
    (register : Option String) : State :=
  if Change.isRepeatable command then { s with lastChange := some ⟨command, count, register⟩ }
  else s

/-- The wish to repeat the last change, if there was one. -/
def repeatChange (s : State) : Option Command := s.lastChange.map .dotRepeat

end State

end ModalStack
