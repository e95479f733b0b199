/-
# Notes with checked indices

The lists of the application are total: a position below 1 means the first item, an index
beyond the end means none.  A program that computes with such indices stops instead.  Here the
application is carried out once more, step by step as such a program does it, and every index
is checked: it must not lie below the first item, and the list must have it.

A look-up that is prepared to miss would not stop.  It is held to more than that here: it may
miss on a stack without items, and on no other.
-/
import ModalStack.Notes.App

namespace ModalStack

/-- Why an index cannot be used. -/
inductive IndexFault where
  /-- It would lie below the first item. -/
  | underflow
  /-- The list is too short. -/
  | outside (index length : Nat)
  deriving DecidableEq

namespace NoteStack

/-! ## 1. Lists -/

/-- The index of the item at a position. -/
def index? (position : Nat) : Except IndexFault Nat :=
  if position = 0 then .error .underflow else .ok (position - 1)

/-- The index names one of so many items. -/
def inside? (index length : Nat) : Except IndexFault Unit :=
  if index < length then .ok () else .error (.outside index length)

/-- The item with an index.  Only where there are no items may there be none. -/
def look? (items : List String) (index : Nat) : Except IndexFault (Option String) :=
  if items.isEmpty then .ok none
  else do
    inside? index items.length
    return items[index]?

/-- The items at these positions. -/
def take? (s : NoteStack) (positions : List Nat) : Except IndexFault (List String) := do
  let found ← positions.mapM fun p => do
    let index ← index? p
    look? s.items index
  return found.filterMap id

/-- A list without the item at a position, if it has that many. -/
def eraseAt? (items : List String) (position : Nat) : Except IndexFault (List String) :=
  if position ≤ items.length then do
    let index ← index? position
    inside? index items.length
    return items.eraseIdx index
  else return items

/-- The stack without the items at these positions, the highest first. -/
def remove? (s : NoteStack) (positions : List Nat) : Except IndexFault (List String) :=
  (positions.mergeSort (· ≤ ·)).reverse.foldlM eraseAt? s.items

/-- A list with an item put in at an index. -/
def insertAt? (items : List String) (index : Nat) (item : String) :
    Except IndexFault (List String) :=
  if index ≤ items.length then .ok (items.insertIdx index item)
  else .error (.outside index items.length)

/-- A list with items put in one by one, from an index upwards. -/
def insertBlock? (items : List String) (index : Nat) :
    List String → Except IndexFault (List String)
  | [] => .ok items
  | item :: rest => do
    let next ← insertAt? items index item
    insertBlock? next (index + 1) rest

/-- A list with a block put in at an index so many times. -/
def insertTimes? (items : List String) (index : Nat) (block : List String) :
    Nat → Except IndexFault (List String)
  | 0 => .ok items
  | times + 1 => do
    let next ← insertBlock? items index block
    insertTimes? next index block times

/-- A list with the items at two positions exchanged. -/
def swapAt? (items : List String) (a b : Nat) : Except IndexFault (List String) := do
  let i ← index? a
  let j ← index? b
  inside? i items.length
  inside? j items.length
  return swapAt items a b

/-- A list with the items from `low` to `high` rotated.  There must be one at least. -/
def rotateBetween? (items : List String) (low high : Nat) :
    Except IndexFault (List String) := do
  let start ← index? low
  inside? start high
  inside? (high - 1) items.length
  return rotateBetween items low high

/-- A list with the items at these positions emptied. -/
def clear? (items : List String) (positions : List Nat) : Except IndexFault (List String) :=
  positions.foldlM
    (fun items p => do
      let index ← index? p
      let _ ← look? items index
      return items.set index "")
    items

/-! ## 2. Commands -/

/-- Where a new item goes. -/
def openIndex? (position : Nat) (above : Bool) : Except IndexFault Nat :=
  if above then .ok position else index? position

/-- Deletes the items at these positions, and stores them. -/
def delete? (s : NoteStack) (positions : List Nat) (register : String) :
    Except IndexFault NoteStack := do
  let taken ← s.take? positions
  let rest ← s.remove? positions
  return { s.store register taken with items := rest }

/-- Stores the items at these positions. -/
def yank? (s : NoteStack) (positions : List Nat) (register : String) :
    Except IndexFault NoteStack := do
  let taken ← s.take? positions
  return s.store register taken

/-- Puts in what a register holds, `count` times, as far up as the stack goes. -/
def paste? (s : NoteStack) (register : String) (position count : Nat) :
    Except IndexFault NoteStack := do
  let items ← insertTimes? s.items (min position s.items.length)
    ((s.registers.get? register).getD []) count
  return { s with items := items }

/-- Puts in an empty item. -/
def open? (s : NoteStack) (position : Nat) (above : Bool) : Except IndexFault NoteStack := do
  let index ← openIndex? position above
  let items ← insertAt? s.items (min index s.items.length) ""
  return { s with items := items }

/-- Carries out a command. -/
def applyCommand? (s : NoteStack) : Command → Except IndexFault NoteStack
  | .deleteItems positions register => s.delete? positions register
  | .deleteToPosition positions _ register => s.delete? positions register
  | .yankItems positions register => s.yank? positions register
  | .yankToPosition positions _ register => s.yank? positions register
  | .pasteItems register position count => s.paste? register position count
  | .swapItems [a, b] => do
    let items ← swapAt? s.items a b
    return { s with items := items }
  | .rotateItems positions =>
    match positions.head?, positions.getLast? with
    | some low, some high => do
      let items ← rotateBetween? s.items low high
      return { s with items := items }
    | _, _ => .ok s
  | .openItem position above => s.open? position above
  | .changeItems positions _ => do
    let items ← clear? s.items positions
    return { s with items := items }
  | _ => .ok s

end NoteStack

namespace NoteApp

/-- What a command means to the application. -/
def follow? (app : NoteApp) : Command → Except IndexFault NoteApp
  | .openItem position above => do
    let index ← NoteStack.openIndex? position above
    return { app with editing := some (min index (app.stack.items.length - 1)) }
  | .changeItems positions _ => do
    let index ← positions.head?.mapM NoteStack.index?
    return { app with editing := index }
  | command => .ok (app.follow command)

/-- Carries out one command. -/
def carryOut? (app : NoteApp) (command : Command) : Except IndexFault NoteApp := do
  let stack ← app.stack.applyCommand? command
  { app with stack := stack }.follow? command

/-- Carries out the commands of the engine, and reports the new depth if they may have
changed it. -/
def carryOutAll? (app : NoteApp) (commands : List Command) : Except IndexFault NoteApp := do
  let next ← commands.foldlM carryOut? app
  return if commands.any NoteStack.resizes then
      { next with engine := next.engine.setDepth next.stack.items.length }
    else next

/-- The application after an operation of its engine. -/
def afterReport? (app : NoteApp) (result : Engine NoteListener × Report NoteListener) :
    Except IndexFault NoteApp :=
  ({ app with engine := result.1 }.hear result.2.deliveries).carryOutAll? result.2.commands

/-! ## 3. Keys -/

/-- A key that the engine left alone.  The index of the cursor is computed even if another
item is being edited. -/
def typeKey? (app : NoteApp) (press : KeyPress) : Except IndexFault NoteApp :=
  match app.engine.state.mode with
  | .insert => do
    let cursor ← NoteStack.index? app.engine.state.position
    let _ ← NoteStack.look? app.stack.items (app.editing.getD cursor)
    return app.typeKey press
  | _ => .ok (app.typeKey press)

/-- The command line is submitted. -/
def submit? (app : NoteApp) : Except IndexFault NoteApp :=
  let cleared := { app with commandLine := "" }
  if asksToQuit app.commandLine then .ok { cleared with shouldQuit := true }
  else cleared.afterReport? (app.engine.submitLine app.commandLine)

/-- A key press as the engine sees it. -/
def handlePress? (app : NoteApp) (press : KeyPress) : Except IndexFault NoteApp :=
  if app.engine.state.mode = .command ∧ press.code = .enter then app.submit?
  else
    let result := app.engine.handleInput (.key press)
    if result.2.handled then app.afterReport? result else app.typeKey? press

/-- A key press as the terminal reports it. -/
def handle? (app : NoteApp) (press : TerminalPress) : Except IndexFault NoteApp :=
  match press.toPress? with
  | some press => app.handlePress? press
  | none => .ok app

/-- Key presses one after the other. -/
def handleAll? (app : NoteApp) (presses : List TerminalPress) : Except IndexFault NoteApp :=
  presses.foldlM handle? app

end NoteApp

end ModalStack
