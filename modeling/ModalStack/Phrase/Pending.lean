/-
# Beginnings of phrases

A buffer that is no phrase may still become one: a numeral, a range with or without its
second end, the `g` of `gg`, a name that is being typed, or one of `d y x` with or without a
numeral after it.  Numerals may be of any script here and of any size.
-/
import ModalStack.Phrase

namespace ModalStack.Phrase

/-- The decimal digits, of any script, that a text begins with. -/
def leadingDecimals (cs : List Char) : List Char := cs.takeWhile Text.isDecimal

/-- What comes after them. -/
def afterDecimals (cs : List Char) : List Char := cs.dropWhile Text.isDecimal

/-- A numeral, or two with a comma between them, the second perhaps missing. -/
def isPendingRange (cs : List Char) : Bool :=
  leadingDecimals cs ≠ [] &&
    match afterDecimals cs with
    | [] => true
    | ',' :: more => more.all Text.isDecimal
    | _ => false

/-- A name being typed, an operator and perhaps a numeral, or the first of two `g`. -/
def isPendingOperator : List Char → Bool
  | ['g'] => true
  | '@' :: name => name.all Text.isWord
  | op :: cs => op ∈ spanOperators && cs.all Text.isDecimal
  | [] => false

/-- The buffer could still grow into a phrase. -/
def isPending (buffer : String) : Bool :=
  isPendingRange buffer.toList || isPendingOperator buffer.toList

end ModalStack.Phrase
