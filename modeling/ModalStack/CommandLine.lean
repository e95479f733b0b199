/-
# Command lines

A line typed after a colon may name a workspace: `:workspace name` or `:w name` switches to
one, `:new-workspace name` or `:nw name` creates one, and `:workspaces` or `:ws` lists them.
Every other line is left to the host.

White space around the line, behind the colon and around the name does not matter, and that
within a name is part of it.
-/
import ModalStack.Command
import ModalStack.Text.Blank

namespace ModalStack.CommandLine

open Text

/-- What a line can ask for. -/
inductive Verb where
  | switch
  | create
  | list
  deriving DecidableEq

/-- The words for a verb. -/
def Verb.ofWord? (word : String) : Option Verb :=
  if word = "workspace" ∨ word = "w" then some .switch
  else if word = "new-workspace" ∨ word = "nw" then some .create
  else if word = "workspaces" ∨ word = "ws" then some .list
  else none

/-- The first word of a text. -/
def firstWord (cs : List Char) : List Char := cs.takeWhile fun c => !isBlank c

/-- What follows the first word, without white space around it. -/
def afterWord (cs : List Char) : List Char := trim (cs.dropWhile fun c => !isBlank c)

/-- What a verb asks for: listing takes no name, the others need one. -/
def Verb.command? (verb : Verb) (name : List Char) : Option Command :=
  match verb with
  | .switch => if name.isEmpty then none else some (.switchWorkspace (String.ofList name))
  | .create => if name.isEmpty then none else some (.createWorkspace (String.ofList name))
  | .list => if name.isEmpty then some .listWorkspaces else none

/-- What the text behind the colon asks for. -/
def ofBody? (cs : List Char) : Option Command :=
  (Verb.ofWord? (String.ofList (firstWord cs))).bind fun verb => verb.command? (afterWord cs)

/-- The workspace command that a line is, if it is one. -/
def parse (line : String) : Option Command :=
  match trim line.toList with
  | ':' :: body => ofBody? (trimStart body)
  | _ => none

theorem Verb.command?_eq_some {verb : Verb} {name : List Char} {c : Command}
    (h : verb.command? name = some c) :
    (∃ name, c = .switchWorkspace name) ∨ (∃ name, c = .createWorkspace name) ∨
      c = .listWorkspaces := by
  cases verb with
  | switch =>
    obtain ⟨-, ⟨⟩⟩ := Option.ite_none_left_eq_some.mp h
    exact .inl ⟨_, rfl⟩
  | create =>
    obtain ⟨-, ⟨⟩⟩ := Option.ite_none_left_eq_some.mp h
    exact .inr (.inl ⟨_, rfl⟩)
  | list =>
    obtain ⟨-, ⟨⟩⟩ := Option.ite_none_right_eq_some.mp h
    exact .inr (.inr rfl)

/-- A line asks for nothing but workspaces. -/
theorem parse_eq_some {line : String} {c : Command} (h : parse line = some c) :
    (∃ name, c = .switchWorkspace name) ∨ (∃ name, c = .createWorkspace name) ∨
      c = .listWorkspaces := by
  unfold parse at h
  split at h
  · obtain ⟨verb, -, hverb⟩ := Option.bind_eq_some_iff.mp h
    exact verb.command?_eq_some hverb
  · exact absurd h (by simp)

end ModalStack.CommandLine
