/-
# An application for notes

The application joins an engine and a stack of notes.  It carries out the engine's commands,
keeps the workspaces, and types what the engine leaves to it: the command line, and the item
that is being edited.

A status line listens to the engine with the focus, and shows the last command.
-/
import ModalStack.Engine
import ModalStack.Notes.Stack
import ModalStack.Notes.Terminal
import ModalStack.Text.Blank
import ModalStack.Written

namespace ModalStack

/-- What listens to the engine of the application. -/
inductive NoteListener where
  | statusLine
  deriving DecidableEq

/-- The application. -/
structure NoteApp where
  engine : Engine NoteListener
  stack : NoteStack
  /-- The notes that were put away, under the names of their workspaces.  The workspace shown
  may have an entry too, which switching away from it will replace. -/
  workspaces : Table String (List String)
  /-- The workspace that is shown. -/
  workspace : String
  commandLine : String
  /-- The index of the item being edited. -/
  editing : Option Nat
  status : String
  shouldQuit : Bool

namespace NoteApp

/-! ## 1. Starting -/

/-- The notes that greet a new user. -/
def welcome : List String :=
  ["welcome to vim_stack",
   "j/k move, 5g jumps, gg/G bottom/top",
   "dd deletes, 3dd deletes three, 2,4d a range",
   "yy yanks, p/P paste, s swaps, r rotates",
   "v selects, / searches, :ws lists workspaces",
   ":nw <name> creates a workspace, :w <name> switches, :q quits"]

/-- The status line, which alone listens and has the focus. -/
def statusListeners : Listeners NoteListener :=
  { Listeners.empty.register "status" .statusLine with focused := some "status" }

/-- The application on a stack of these notes. -/
def ofItems (items : List String) : NoteApp where
  engine :=
    { (Setup.start { depth := items.length } : Engine NoteListener) with
      listeners := statusListeners }
  stack := .ofItems items
  workspaces := .ofList [("default", [])]
  workspace := "default"
  commandLine := ""
  editing := none
  status := ""
  shouldQuit := false

/-- The application as it starts. -/
def start : NoteApp := ofItems welcome

/-- The application with its notes replaced. -/
def withItems (app : NoteApp) (items : List String) : NoteApp :=
  { app with stack := .ofItems items, engine := app.engine.setDepth items.length }

/-! ## 2. Commands of the engine -/

/-- The status line hears what was delivered. -/
def hear (app : NoteApp) (deliveries : List (Delivery NoteListener)) : NoteApp :=
  deliveries.foldl
    (fun app d => if d.focused then { app with status := d.command.written } else app) app

/-- Shows another workspace, and puts away the one shown so far. -/
def switchWorkspace (app : NoteApp) (name : String) : NoteApp :=
  match app.workspaces.get? name with
  | none => { app with status := "no workspace named " ++ name }
  | some items =>
    { app with
      stack := { app.stack with items := items }
      workspaces := (app.workspaces.erase name).insert app.workspace app.stack.items
      workspace := name
      engine := app.engine.setDepth items.length }

/-- Makes room for a workspace, unless there is one of this name. -/
def addWorkspace (app : NoteApp) (name : String) : NoteApp :=
  if app.workspaces.contains name then app
  else { app with workspaces := app.workspaces.insert name [] }

/-- The names of the workspaces, sorted. -/
def workspaceNames (app : NoteApp) : List String :=
  app.workspaces.keys.mergeSort (· ≤ ·)

/-- What a command means to the application, once the notes have followed it. -/
def follow (app : NoteApp) : Command → NoteApp
  | .modeChange .command => { app with commandLine := ":" }
  | .modeChange .normal => { app with editing := none }
  | .openItem position above =>
    { app with
      editing := some (min (NoteStack.openIndex position above) (app.stack.items.length - 1)) }
  | .changeItems positions _ => { app with editing := positions.head?.map (· - 1) }
  | .switchWorkspace name => app.switchWorkspace name
  | .createWorkspace name => (app.addWorkspace name).switchWorkspace name
  | .listWorkspaces => { app with status := "  ".intercalate app.workspaceNames }
  | _ => app

/-- Carries out one command. -/
def carryOut (app : NoteApp) (command : Command) : NoteApp :=
  { app with stack := app.stack.apply command }.follow command

/-- Carries out the commands of the engine, and reports the new depth if they may have
changed it. -/
def carryOutAll (app : NoteApp) (commands : List Command) : NoteApp :=
  let next := commands.foldl carryOut app
  if commands.any NoteStack.resizes then
    { next with engine := next.engine.setDepth next.stack.items.length }
  else next

/-- The application after an operation of its engine. -/
def afterReport (app : NoteApp) (result : Engine NoteListener × Report NoteListener) : NoteApp :=
  ({ app with engine := result.1 }.hear result.2.deliveries).carryOutAll result.2.commands

/-! ## 3. Keys -/

/-- A text after a key was typed at its end. -/
def typed (text : List Char) (press : KeyPress) : List Char :=
  if press.code = .backspace then text.dropLast
  else
    match press.printable with
    | some c => text ++ [c]
    | none => text

/-- The same for strings. -/
def typedText (text : String) (press : KeyPress) : String :=
  String.ofList (typed text.toList press)

/-- The index of the item that insert mode types into. -/
def editedIndex (app : NoteApp) : Nat := app.editing.getD (app.engine.state.position - 1)

/-- A key that the engine left alone. -/
def typeKey (app : NoteApp) (press : KeyPress) : NoteApp :=
  match app.engine.state.mode with
  | .command => { app with commandLine := typedText app.commandLine press }
  | .insert =>
    { app with
      stack := { app.stack with
        items := app.stack.items.modify app.editedIndex fun item => typedText item press } }
  | _ => app

/-- The line asks to quit. -/
def asksToQuit (line : String) : Bool := Text.trim line.toList == [':', 'q']

/-- The command line is submitted. -/
def submit (app : NoteApp) : NoteApp :=
  let cleared := { app with commandLine := "" }
  if asksToQuit app.commandLine then { cleared with shouldQuit := true }
  else cleared.afterReport (app.engine.submitLine app.commandLine)

/-- A key press as the engine sees it. -/
def handlePress (app : NoteApp) (press : KeyPress) : NoteApp :=
  if app.engine.state.mode = .command ∧ press.code = .enter then app.submit
  else
    let result := app.engine.handleInput (.key press)
    if result.2.handled then app.afterReport result else app.typeKey press

/-- A key press as the terminal reports it. -/
def handle (app : NoteApp) (press : TerminalPress) : NoteApp :=
  match press.toPress? with
  | some press => app.handlePress press
  | none => app

/-- Key presses one after the other. -/
def handleAll (app : NoteApp) (presses : List TerminalPress) : NoteApp := presses.foldl handle app

end NoteApp

end ModalStack
