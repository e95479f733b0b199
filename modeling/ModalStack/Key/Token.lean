/-
# Key tokens

Every key press has a canonical text, its token: a character stands for itself, any other
key for its name between angle brackets, and the modifiers held come before, as `C-`, `A-`,
`M-` and `S-`.  Shift is left out before a character, which shows it already.

A command that is being typed is a list of tokens.  Joined to one text it can be cut back
into tokens (`tokenize`), but not always into the same ones: the three characters of `C-j`
come back as one chord.
-/
import ModalStack.Key

namespace ModalStack

/-! ## 1. The token of a key press -/

/-- The name of a key between angle brackets. -/
def bracketed (name : String) : List Char := '<' :: name.toList ++ ['>']

/-- The text of a key without modifiers. -/
def KeyCode.label : KeyCode → List Char
  | .char c => [c]
  | .escape => bracketed "Escape"
  | .enter => bracketed "Enter"
  | .backspace => bracketed "Backspace"
  | .tab => bracketed "Tab"
  | .delete => bracketed "Delete"
  | .up => bracketed "Up"
  | .down => bracketed "Down"
  | .left => bracketed "Left"
  | .right => bracketed "Right"
  | .home => bracketed "Home"
  | .endKey => bracketed "End"
  | .pageUp => bracketed "PageUp"
  | .pageDown => bracketed "PageDown"
  | .function n => bracketed ("F" ++ toString n)

/-- The key is a character. -/
def KeyCode.isChar : KeyCode → Bool
  | .char _ => true
  | _ => false

/-- The mark of one modifier, if it is held. -/
def modifierMark (held : Bool) (letter : Char) : List Char := if held then [letter, '-'] else []

/-- The marks of the modifiers held with a key. -/
def KeyPress.marks (press : KeyPress) : List Char :=
  modifierMark press.mods.ctrl 'C' ++ modifierMark press.mods.alt 'A'
    ++ modifierMark press.mods.metaKey 'M'
    ++ modifierMark (press.mods.shift && !press.code.isChar) 'S'

/-- The token of the escape key. -/
def escapeToken : String := "<Escape>"

/-- The canonical text of a key press. -/
def KeyPress.token (press : KeyPress) : String :=
  if press.isControlBracket then escapeToken
  else String.ofList (press.marks ++ press.code.label)

/-! ## 2. Joining and cutting -/

/-- The tokens as one text. -/
def joinTokens (tokens : List String) : String :=
  String.ofList (tokens.flatMap String.toList)

theorem toList_joinTokens (tokens : List String) :
    (joinTokens tokens).toList = tokens.flatMap String.toList := by
  simp [joinTokens]

/-- The letters of the modifier marks. -/
def markLetters : List Char := ['C', 'A', 'M', 'S']

/-- A modifier mark begins here: its letter is followed by a hyphen and by something to
modify. -/
def beginsMark (c : Char) (rest : List Char) : Bool :=
  markLetters.contains c &&
    match rest with
    | '-' :: _ :: _ => true
    | _ => false

/-- Where a cut through a text stands. -/
inductive Cut where
  /-- At the beginning of a token, or after some of its marks. -/
  | fresh
  /-- Between the letter of a mark and its hyphen. -/
  | inMark
  /-- Behind an opening angle bracket that is closed further on. -/
  | inGroup
  deriving DecidableEq

/-- Cuts the rest of a text, `taken` being the part of the current token already read. -/
def cutTokens : Cut → List Char → List Char → List (List Char)
  | _, taken, [] => if taken.isEmpty then [] else [taken]
  | .inMark, taken, c :: rest => cutTokens .fresh (taken ++ [c]) rest
  | .inGroup, taken, c :: rest =>
    if c = '>' then (taken ++ [c]) :: cutTokens .fresh [] rest
    else cutTokens .inGroup (taken ++ [c]) rest
  | .fresh, taken, c :: rest =>
    if beginsMark c rest then cutTokens .inMark (taken ++ [c]) rest
    else if c = '<' ∧ '>' ∈ rest then cutTokens .inGroup (taken ++ [c]) rest
    else (taken ++ [c]) :: cutTokens .fresh [] rest

/-- Cuts a text into key tokens.  A token is a group from an angle bracket to the first that
closes it, or else a single character, either behind any number of modifier marks. -/
def tokenize (buffer : String) : List String :=
  (cutTokens .fresh [] buffer.toList).map String.ofList

end ModalStack
