/-
# Phrases

A phrase is a command that is complete in itself, whatever the keymap: an operator with an
operand typed around it.  `n` and `m` standing for numerals, the forms are

1. `gg`, the bottom of the stack;
2. `@name`, an item known by name;
3. `ng`, a position;
4. `n` and an operator: a count for `d y x p + - * /`, and a position for other letters;
5. one of `G j k d y p x s r` alone, with the operand it has of its own;
6. `n,m` and a letter, a range;
7. `dng`, `yng` or `xng`, an operation up to a position.

The forms are tried in this order, and the first that fits decides.
-/
import ModalStack.Numeral
import ModalStack.Text.Word

namespace ModalStack

/-- The operands that operators have of their own. -/
inductive Special where
  | top
  | bottom
  | swap
  | rotate
  deriving DecidableEq

/-- What an operator is applied to. -/
inductive Operand where
  | count (n : Nat)
  | position (n : Nat)
  | relative (offset : Int)
  | range (start stop : Nat)
  | named (name : String)
  | special (kind : Special)
  deriving DecidableEq

/-- The number in a count or a position, if it is small enough to be a count. -/
def Operand.numeric : Operand → Option Nat
  | .count n => some n
  | .position n => if n ≤ maxCount then some n else none
  | _ => none

/-- The operand gives two ends. -/
def Operand.isRange : Operand → Bool
  | .range _ _ => true
  | _ => false

/-- An operator and its operand. -/
structure Phrase where
  /-- The operator; a keymap binds the phrase under this key. -/
  operator : String
  operand : Operand
  deriving DecidableEq

namespace Phrase

open Numeral

/-! ## 1. The forms -/

/-- The operators that take a number before them as a count. -/
def countOperators : List Char := ['d', 'y', 'x', 'p', '+', '-', '*', '/']

/-- The operators of the last form. -/
def spanOperators : List Char := ['d', 'y', 'x']

/-- Form 1. -/
def bottom? (cs : List Char) : Option Phrase :=
  if cs = ['g', 'g'] then some ⟨"gg", .special .bottom⟩ else none

/-- Form 2. -/
def named? : List Char → Option Phrase
  | '@' :: name =>
    if name ≠ [] ∧ name.all Text.isWord then some ⟨"@", .named (String.ofList name)⟩ else none
  | _ => none

/-- Form 3. -/
def position? (cs : List Char) : Option Phrase :=
  match afterDigits cs with
  | ['g'] => (read? maxPosition (leadingDigits cs)).map fun n => ⟨"g", .position n⟩
  | _ => none

/-- Form 4. -/
def counted? (cs : List Char) : Option Phrase :=
  match afterDigits cs with
  | [op] =>
    if op ∈ countOperators then
      (read? maxCount (leadingDigits cs)).map fun n => ⟨String.singleton op, .count n⟩
    else if op.isAlpha then
      (read? maxPosition (leadingDigits cs)).map fun n => ⟨String.singleton op, .position n⟩
    else none
  | _ => none

/-- The operand of an operator that stands alone. -/
def ownOperand? : Char → Option Operand
  | 'G' => some (.special .top)
  | 'j' => some (.relative 1)
  | 'k' => some (.relative (-1))
  | 'd' | 'y' | 'p' | 'x' => some (.count 1)
  | 's' => some (.special .swap)
  | 'r' => some (.special .rotate)
  | _ => none

/-- Form 5. -/
def bare? : List Char → Option Phrase
  | [op] => (ownOperand? op).map fun operand => ⟨String.singleton op, operand⟩
  | _ => none

/-- Form 6. -/
def range? (cs : List Char) : Option Phrase :=
  match afterDigits cs with
  | ',' :: more =>
    match afterDigits more with
    | [op] =>
      if op.isAlpha then
        (read? maxPosition (leadingDigits cs)).bind fun start =>
          (read? maxPosition (leadingDigits more)).map fun stop =>
            ⟨String.singleton op, .range start stop⟩
      else none
    | _ => none
  | _ => none

/-- Form 7. -/
def span? : List Char → Option Phrase
  | op :: cs =>
    if op ∈ spanOperators ∧ afterDigits cs = ['g'] then
      (read? maxPosition (leadingDigits cs)).map fun n =>
        ⟨String.ofList [op, 'g'], .position n⟩
    else none
  | [] => none

/-- The forms, in the order in which they are tried. -/
def forms : List (List Char → Option Phrase) :=
  [bottom?, named?, position?, counted?, bare?, range?, span?]

/-! ## 2. Reading -/

/-- The phrase that the whole of a buffer is, if it is one. -/
def parse (buffer : String) : Option Phrase := forms.findSome? fun form => form buffer.toList

end Phrase

end ModalStack
