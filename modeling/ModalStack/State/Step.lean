/-
# One step of the engine

An input leads from a state to the next, together with the commands for the listeners: that
of the action that ran, if it sent one, and then news of what changed in the selection, the
mode and the buffer, in this order.

In normal and visual mode keys are gathered until they resolve.  An escape is looked up at
once, and so is every key of the insert and command modes.  In search mode keys are typed.
-/
import ModalStack.Change
import ModalStack.Resolution
import ModalStack.State.Search

namespace ModalStack.State

/-! ## 1. Running an action -/

/-- Runs a resolved action.  What was typed is spent, the command is counted and, if it can
be repeated, remembered. -/
def execute (s : State) (settings : Settings) (r : Resolved) : State × Option Command :=
  let count := r.count.or s.pendingCount
  let reaction := r.action.run
    { state := s
      count := count
      register := r.register
      operand := r.phrase.map Phrase.operand
      settings := settings }
  let next := { (reaction.state.getD s).clearBuffer with
    pendingCount := none
    lastCommand := some r.raw
    tick := wrap (s.tick + 1) }
  (next.recordChange r.body count r.register, reaction.command)

/-! ## 2. Keys -/

/-- One more token, to be gathered or to complete a command. -/
def gather (s : State) (keymap : Keymap) (settings : Settings) (token : String) :
    State × Option Command :=
  let keys := s.keys ++ [token]
  match keymap.resolveKeys keys with
  | .resolved r => s.execute settings r
  | .pending => ({ s with buffer := joinTokens keys, keys := keys }, none)
  | .invalid => (s.clearBuffer, none)

/-- A token on its own.  An escape that the keymap does not bind drops what was typed. -/
def lookUp (s : State) (keymap : Keymap) (settings : Settings) (token : String) :
    State × Option Command :=
  match keymap.action? token with
  | some action => s.execute settings (.bare action token)
  | none =>
    if token = escapeToken then ({ s.clearBuffer with pendingCount := none }, none)
    else (s, none)

/-- Keys are gathered in this mode. -/
def gathers (s : State) : Bool := s.mode == .normal || s.mode == .visual

/-- A token in any mode that has a keymap. -/
def token (s : State) (keymap : Keymap) (settings : Settings) (token : String) :
    State × Option Command :=
  if s.gathers && token != escapeToken then s.gather keymap settings token
  else s.lookUp keymap settings token

/-! ## 3. The step -/

/-- News of what differs between two states. -/
def news (before after : State) : List Command :=
  (if after.selection ≠ before.selection then [.selectionChange after.selection] else [])
    ++ (if after.mode ≠ before.mode then [.modeChange after.mode] else [])
    ++ (if after.buffer ≠ before.buffer then [.bufferUpdate after.buffer] else [])

/-- The next state, and the command of the action that ran. -/
def react (s : State) (keymaps : Keymaps) (settings : Settings) (input : Input) :
    State × Option Command :=
  match keymaps.forMode? s.mode with
  | none => s.searchInput input settings.segmentation
  | some keymap => s.token keymap settings input.press.token

/-- The next state, and everything there is to tell the listeners. -/
def step (s : State) (keymaps : Keymaps) (settings : Settings) (input : Input) :
    State × List Command :=
  let next := s.react keymaps settings input
  (next.1, next.2.toList ++ news s next.1)

end ModalStack.State
