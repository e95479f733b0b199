/-
# Values in writing

How commands, actions and listeners are written out, for a status line or a log.
-/
import ModalStack.Action
import ModalStack.Listeners
import ModalStack.Text.Record

namespace ModalStack

open Text

/-- A mode in writing. -/
def Mode.written : Mode → String
  | .normal => "Normal"
  | .insert => "Insert"
  | .visual => "Visual"
  | .command => "Command"
  | .search => "Search"

/-- A direction in writing. -/
def Direction.written : Direction → String
  | .forward => "Forward"
  | .backward => "Backward"

/-- A selection in writing, the anchor first. -/
def Selection.written (s : Selection) : String :=
  record "VisualSelection" [("start", toString s.anchor), ("end", toString s.head)]

/-- A change in writing. -/
def Change.written (c : Change) : String :=
  record "LastChange"
    [("command", quoted c.command), ("count", optional (c.count.map toString)),
     ("register", optional (c.register.map quoted))]

/-- Positions as a list of numbers. -/
def writtenPositions (positions : List Nat) : String := listed (positions.map toString)

/-- Commands on items that go to a register. -/
def writtenToRegister (name : String) (positions : List Nat) (register : String) : String :=
  record name [("positions", writtenPositions positions), ("to_register", quoted register)]

/-- The same, up to a target. -/
def writtenToTarget (name : String) (positions : List Nat) (target : Nat) (register : String) :
    String :=
  record name
    [("positions", writtenPositions positions), ("target", toString target),
     ("to_register", quoted register)]

/-- A command in writing. -/
def Command.written : Command → String
  | .moveToPosition position => record "MoveToPosition" [("position", toString position)]
  | .moveRelative offset => record "MoveRelative" [("offset", toString offset)]
  | .moveToTop => "MoveToTop"
  | .moveToBottom => "MoveToBottom"
  | .moveToNamed name => record "MoveToNamed" [("name", quoted name)]
  | .deleteItems positions register => writtenToRegister "DeleteItems" positions register
  | .yankItems positions register => writtenToRegister "YankItems" positions register
  | .pasteItems register position count =>
    record "PasteItems"
      [("from_register", quoted register), ("position", toString position),
       ("count", toString count)]
  | .swapItems positions => record "SwapItems" [("positions", writtenPositions positions)]
  | .rotateItems positions => record "RotateItems" [("positions", writtenPositions positions)]
  | .deleteToPosition positions target register =>
    writtenToTarget "DeleteToPosition" positions target register
  | .yankToPosition positions target register =>
    writtenToTarget "YankToPosition" positions target register
  | .openItem position above =>
    record "OpenItem" [("position", toString position), ("above", toString above)]
  | .changeItems positions register => writtenToRegister "ChangeItems" positions register
  | .search query =>
    record "Search" [("pattern", quoted query.pattern), ("direction", query.direction.written)]
  | .nextMatch reverse => record "NextMatch" [("reverse", toString reverse)]
  | .dotRepeat change => record "DotRepeat" [("change", change.written)]
  | .switchWorkspace name => record "SwitchWorkspace" [("name", quoted name)]
  | .listWorkspaces => "ListWorkspaces"
  | .createWorkspace name => record "CreateWorkspace" [("name", quoted name)]
  | .modeChange mode => record "ModeChange" [("mode", mode.written)]
  | .bufferUpdate buffer => record "CommandBufferUpdate" [("buffer", quoted buffer)]
  | .selectionChange selection =>
    record "SelectionChange" [("selection", optional (selection.map Selection.written))]

/-- An action in writing. -/
def Action.written (a : Action) : String := tagged "Action" (quoted a.name)

/-- The listeners' ids and the focus in writing. -/
def Listeners.written {η : Type} (l : Listeners η) : String :=
  record "FocusBroker"
    [("handlers", listed (l.handlers.keys.map quoted)),
     ("focused", optional (l.focused.map quoted))]

end ModalStack
