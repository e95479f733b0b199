/-
# The engine

The engine joins a state, the keymaps, the settings and the listeners.  A host hands it what
the user types (`handleEvent`, `submitLine`) and reports what it cannot know, and everything
the engine has to say comes back as a report and goes to the listeners.

`Operation` lists what a host can do to a running engine, so that a run is a list of
operations.
-/
import ModalStack.CommandLine
import ModalStack.Intercept
import ModalStack.Keymap.Default
import ModalStack.Listeners
import ModalStack.Phrase.Bounds
import ModalStack.State.Step

namespace ModalStack

/-- The engine, with listeners of any kind. -/
structure Engine (η : Type) where
  state : State
  keymaps : Keymaps
  settings : Settings
  listeners : Listeners η

/-- The state after a command line was submitted. -/
def State.afterLine (s : State) : State :=
  { s.clearBuffer with mode := .normal, selection := none }

/-- What a host shows of the state. -/
structure Snapshot where
  mode : Mode
  buffer : String
  pendingCount : Option Nat
  position : Nat
  depth : Nat
  selection : Option Selection
  deriving DecidableEq

/-- What came of an operation. -/
structure Report (η : Type) where
  /-- The engine took the key; if not, the host does with it what it would do anyway. -/
  handled : Bool
  commands : List Command
  deliveries : List (Delivery η)

/-! ## 1. Starting -/

/-- What an engine starts with. -/
structure Setup where
  mode : Mode := .normal
  depth : Nat := 0
  settings : Settings := {}
  keymaps : Keymaps := .default

namespace Setup

/-- A rotation without a count takes this many items, but at least one. -/
def withRotateCount (setup : Setup) (count : Nat) : Setup :=
  { setup with settings := { setup.settings with rotateCount := max 1 count } }

/-- A keymap laid over that of a mode. -/
def layer (setup : Setup) (mode : Mode) (keymap : Keymap) : Setup :=
  { setup with keymaps := setup.keymaps.modify mode (·.overlay keymap) }

/-- The first state.  In visual mode the item under the cursor is selected. -/
def state (setup : Setup) : State :=
  let s := { ({} : State).withDepth setup.depth with mode := setup.mode }
  match setup.mode with
  | .visual => s.enterVisual
  | _ => s

/-- The engine, to which nobody listens yet. -/
def start {η : Type} (setup : Setup) : Engine η :=
  ⟨setup.state, setup.keymaps, setup.settings, .empty⟩

end Setup

namespace Engine

variable {η : Type}

/-- What a host shows of the engine. -/
def snapshot (e : Engine η) : Snapshot where
  mode := e.state.mode
  buffer := e.state.buffer
  pendingCount := e.state.pendingCount
  position := e.state.position
  depth := e.state.depth
  selection := e.state.selection

/-! ## 2. What a user does -/

/-- The report that these commands were sent. -/
def sent (e : Engine η) (commands : List Command) : Report η :=
  ⟨true, commands, e.listeners.deliverAll commands⟩

/-- An input that was typed in some context. -/
def handleEvent (e : Engine η) (input : Input) (context : Context) : Engine η × Report η :=
  if e.state.takes context input.press then
    let next := e.state.step e.keymaps e.settings input
    ({ e with state := next.1 }, e.sent next.2)
  else (e, ⟨false, [], []⟩)

/-- An input that was typed on the stack. -/
def handleInput (e : Engine η) (input : Input) : Engine η × Report η :=
  e.handleEvent input .stack

/-- A command line that the user submitted.  The engine returns to normal mode, whatever the
line says. -/
def submitLine (e : Engine η) (line : String) : Engine η × Report η :=
  let commands := (CommandLine.parse line).toList
    ++ (if e.state.mode ≠ .normal then [.modeChange .normal] else [])
  ({ e with state := e.state.afterLine }, e.sent commands)

/-! ## 3. What a host reports -/

/-- The stack is this deep. -/
def setDepth (e : Engine η) (depth : Nat) : Engine η :=
  { e with state := e.state.withDepth depth }

/-- A count for the next command that has none of its own.  Zero is none. -/
def setPendingCount (e : Engine η) (count : Option Nat) : Engine η :=
  { e with state := { e.state with pendingCount := count.filter (0 < ·) } }

/-- A register holds these items. -/
def storeRegister (e : Engine η) (name : String) (items : List String) : Engine η :=
  { e with state := { e.state with registers := e.state.registers.insert name items } }

/-! ## 4. Runs -/

/-- What a host can do to a running engine. -/
inductive Operation where
  | event (input : Input) (context : Context)
  | submitLine (line : String)
  | setDepth (depth : Nat)
  | setPendingCount (count : Option Nat)
  | storeRegister (name : String) (items : List String)
  deriving DecidableEq

/-- Carries out an operation. -/
def perform (e : Engine η) : Operation → Engine η × Report η
  | .event input context => e.handleEvent input context
  | .submitLine line => e.submitLine line
  | .setDepth depth => (e.setDepth depth, e.sent [])
  | .setPendingCount count => (e.setPendingCount count, e.sent [])
  | .storeRegister name items => (e.storeRegister name items, e.sent [])

/-- Carries out operations one after the other. -/
def run (e : Engine η) : List Operation → Engine η
  | [] => e
  | op :: rest => (e.perform op).1.run rest

end Engine

end ModalStack
