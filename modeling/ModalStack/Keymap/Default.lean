/-
# The default keymaps

In normal mode `d`, `y`, `c` and `x` wait for a second key: doubled they act on the item
under the cursor.  As phrases they take a count, a range, or a position up to which they
reach; the keys `dg`, `yg` and `xg` are there for phrases only.

Leaving visual mode and leaving the command line are the same action as the escape, under
names of their own.
-/
import ModalStack.Action.Library
import ModalStack.Keymap

namespace ModalStack.Keymap

open ModalStack.Action

/-- A key bound to an action. -/
def bind (key name : String) (run : Invocation → Reaction) : String × Binding :=
  (key, .action ⟨name, run⟩)

/-- An operator that waits for its own key to be typed again. -/
def bindDoubled (key waiting name : String) (run : Invocation → Reaction) : String × Binding :=
  (key, .submap ⟨waiting, [bind key name run]⟩)

/-- The motions of normal and visual mode. -/
def motions : List (String × Binding) :=
  [bind "j" "move_down" moveDown, bind "<Down>" "move_down" moveDown,
   bind "k" "move_up" moveUp, bind "<Up>" "move_up" moveUp,
   bind "g" "goto_position" gotoPosition, bind "gg" "goto_bottom" gotoBottom,
   bind "G" "goto_top" gotoTop]

/-- Normal mode: motions, operators, and the keys that lead to the other modes. -/
def defaultNormal : Keymap :=
  ⟨"normal", motions ++
    [bindDoubled "d" "delete" "delete" delete,
     bind "dg" "delete_to_position" deleteToPosition,
     bindDoubled "x" "drop" "delete" delete,
     bind "xg" "delete_to_position" deleteToPosition,
     bindDoubled "y" "yank" "yank" yank,
     bind "yg" "yank_to_position" yankToPosition,
     bind "Y" "yank" yank,
     bind "p" "paste_after" (paste true),
     bind "P" "paste_before" (paste false),
     bind "s" "swap" swap,
     bind "r" "rotate" rotate,
     bind "o" "open_below" (openItem false),
     bind "O" "open_above" (openItem true),
     bindDoubled "c" "change" "change" change,
     bind "S" "change" change,
     bind "i" "insert_mode" insertMode,
     bind "a" "insert_mode" insertMode,
     bind "v" "visual_mode" visualMode,
     bind "V" "visual_mode" visualMode,
     bind "/" "search_forward" (search .forward),
     bind "?" "search_backward" (search .backward),
     bind "n" "next_match" (nextMatch false),
     bind "N" "prev_match" (nextMatch true),
     bind ":" "command_mode" commandMode,
     bind "." "dot_repeat" dotRepeat,
     bind "@" "goto_named" gotoNamed,
     bind "<Escape>" "escape" escape]⟩

/-- Visual mode: motions, and operators on the selection. -/
def defaultVisual : Keymap :=
  ⟨"visual", motions ++
    [bind "d" "delete" delete,
     bind "x" "delete" delete,
     bind "y" "yank" yank,
     bind "Y" "yank" yank,
     bind "c" "change" change,
     bind "v" "exit_visual" escape,
     bind "V" "exit_visual" escape,
     bind "<Escape>" "escape" escape]⟩

/-- Insert mode: only the escape. -/
def defaultInsert : Keymap := ⟨"insert", [bind "<Escape>" "escape" escape]⟩

/-- The command line: the two keys that end it. -/
def defaultCommand : Keymap :=
  ⟨"command", [bind "<Escape>" "escape" escape, bind "<Enter>" "submit" escape]⟩

end ModalStack.Keymap

namespace ModalStack.Keymaps

/-- The keymaps an engine starts with. -/
def default : Keymaps where
  normal := Keymap.defaultNormal
  insert := Keymap.defaultInsert
  visual := Keymap.defaultVisual
  command := Keymap.defaultCommand

end ModalStack.Keymaps
