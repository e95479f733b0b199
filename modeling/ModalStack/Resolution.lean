/-
# Resolving what was typed

The tokens of a command resolve to an action in three steps.

1. A register prefix, `"` and a name of one character, is split off.
2. If the rest is a phrase whose operator the keymap binds, that action is meant.
3. If the rest may still grow into a phrase, more keys are awaited.  If not, leading digits
   are taken as a count, and what follows them is walked through the keymap.

The register prefix exists on two levels.  The resolver splits the tokens that were typed;
whoever only has the joined text splits its characters (`bufferBody`).
-/
import ModalStack.Key.Token
import ModalStack.Keymap
import ModalStack.Phrase.Pending

namespace ModalStack

/-! ## 1. Register prefixes -/

/-- What was typed, with its register prefix split off. -/
inductive RegisterSplit (β : Type) where
  /-- The prefix, or what it is for, is still missing. -/
  | incomplete
  /-- No register has this name. -/
  | invalid
  | split (register : Option String) (body : β)

/-- The characters that name registers. -/
def isRegisterName (c : Char) : Bool := c.isAlphanum || c == '"'

/-- Splits the characters of a buffer. -/
def splitRegister : List Char → RegisterSplit (List Char)
  | '"' :: name :: body =>
    if !isRegisterName name then .invalid
    else if body.isEmpty then .incomplete
    else .split (some (String.singleton name)) body
  | ['"'] => .incomplete
  | cs => .split none cs

/-- The token is a name of a register. -/
def isRegisterToken (token : String) : Bool :=
  match token.toList with
  | [c] => isRegisterName c
  | _ => false

/-- Splits a list of tokens. -/
def splitRegisterKeys : List String → RegisterSplit (List String)
  | [] => .split none []
  | first :: rest =>
    if first ≠ "\"" then .split none (first :: rest)
    else
      match rest with
      | [] => .incomplete
      | name :: body =>
        if !isRegisterToken name then .invalid
        else if body.isEmpty then .incomplete
        else .split (some name) body

/-- A buffer without its register prefix; nothing, as long as the prefix is incomplete or if
it is invalid. -/
def bufferBody (buffer : String) : String :=
  match splitRegister buffer.toList with
  | .split _ body => String.ofList body
  | _ => ""

/-! ## 2. Resolving -/

/-- An action that was named, with all that is needed to run it. -/
structure Resolved where
  action : Action
  /-- Everything that was typed. -/
  raw : String
  /-- What was typed, without a register prefix. -/
  body : String
  phrase : Option Phrase
  /-- The count that was typed.  Zero is none. -/
  count : Option Nat
  register : Option String

/-- The action alone, found under one token. -/
def Resolved.bare (action : Action) (token : String) : Resolved where
  action := action
  raw := token
  body := token
  phrase := none
  count := none
  register := none

/-- What the tokens typed so far amount to. -/
inductive Resolution where
  | resolved (r : Resolved)
  /-- More keys are awaited. -/
  | pending
  /-- Nothing can come of it. -/
  | invalid

/-- The action that a keymap binds a phrase to.  Where the operator is bound to a keymap that
waits for the operator again, a range can do without that. -/
def Keymap.actionFor? (m : Keymap) (phrase : Phrase) : Option Action :=
  match m.get? phrase.operator with
  | some (.action a) => some a
  | some (.submap inner) =>
    if phrase.operand.isRange then Keymap.action? inner phrase.operator else none
  | none => none

/-- The token is a single ASCII digit. -/
def isDigitToken (token : String) : Bool :=
  match token.toList with
  | [c] => c.isDigit
  | _ => false

/-- The text begins with an ASCII digit. -/
def beginsWithDigit (s : String) : Bool := s.toList.head?.any Char.isDigit

/-- The count of a phrase: the number before the operator.  A number behind it is a target. -/
def phraseCount (body : String) (phrase : Phrase) : Option Nat :=
  if beginsWithDigit body then phrase.operand.numeric.filter (0 < ·) else none

/-- The phrase that a body is, with the action that the keymap binds it to. -/
def Keymap.phraseAction? (m : Keymap) (body : String) : Option (Phrase × Action) :=
  (Phrase.parse body).bind fun phrase => (m.actionFor? phrase).map fun a => (phrase, a)

/-- Resolves the tokens behind a register prefix. -/
def Keymap.resolveBody (m : Keymap) (raw : String) (register : Option String)
    (keys : List String) : Resolution :=
  let body := joinTokens keys
  match m.phraseAction? body with
  | some (phrase, a) =>
    .resolved ⟨a, raw, body, some phrase, phraseCount body phrase, register⟩
  | none =>
    if Phrase.isPending body then .pending
    else
      match m.walk (keys.dropWhile isDigitToken) with
      | .found a =>
        .resolved ⟨a, raw, body, none,
          Numeral.count? (joinTokens (keys.takeWhile isDigitToken)).toList, register⟩
      | .unfinished => .pending
      | .lost => .invalid

/-- Resolves the tokens of a command. -/
def Keymap.resolveKeys (m : Keymap) (keys : List String) : Resolution :=
  match splitRegisterKeys keys with
  | .incomplete => .pending
  | .invalid => .invalid
  | .split register body => m.resolveBody (joinTokens keys) register body

/-- Resolves the joined text of a command, cut back into tokens. -/
def Keymap.resolve (m : Keymap) (buffer : String) : Resolution := m.resolveKeys (tokenize buffer)

end ModalStack
