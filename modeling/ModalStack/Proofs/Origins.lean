/-
# Where commands come from

Under the default keymaps the commands fall into three groups, by where they come from.  News
tell of a change in the engine, and only a step adds them (`State.news`).  Workspaces are named
on command lines alone.  All other commands are sent by the actions that keys run, one for each
key at most, and by a search that is submitted.

So what a key sends is at most one command of the last group, with news behind it
(`State.react_fromKeys`, `State.fromKeys_or_isNews_of_mem`).
-/
import ModalStack.Proofs.Addressing

namespace ModalStack

/-- Keys send commands of this sort: neither news nor about workspaces. -/
def Command.FromKeys : Command → Prop
  | .modeChange _ | .bufferUpdate _ | .selectionChange _ => False
  | .switchWorkspace _ | .listWorkspaces | .createWorkspace _ => False
  | _ => True

theorem Command.FromKeys.not_isNews {c : Command} (h : c.FromKeys) : ¬ c.IsNews := by
  intro hn
  cases c with
  | modeChange _ | bufferUpdate _ | selectionChange _ => exact h
  | _ => exact hn

/-- Every command of an action is one that keys send. -/
theorem Bound.fromKeys {i : Invocation} {mode : Mode} {run : Invocation → Reaction}
    (hb : Bound mode run) {c : Command} (hc : (run i).command = some c) : c.FromKeys := by
  cases hb with
  | moveDown _ | moveUp _ | gotoPosition _ | gotoBottom _ | paste _ | openItem _ =>
    obtain rfl := Option.some.inj hc
    trivial
  | gotoTop _ =>
    unfold Action.gotoTop at hc
    split at hc
    · obtain rfl := Option.some.inj hc
      trivial
    · obtain rfl := Option.some.inj hc
      trivial
  | gotoNamed =>
    unfold Action.gotoNamed at hc
    split at hc
    · obtain rfl := Option.some.inj hc
      trivial
    · exact absurd hc (by simp [Reaction.nothing])
  | delete _ | yank _ | change _ | swap | rotate =>
    obtain ⟨-, rfl⟩ := Action.finish_command hc
    trivial
  | deleteToPosition =>
    unfold Action.deleteToPosition at hc
    split at hc
    · obtain ⟨-, rfl⟩ := Action.finish_command hc
      trivial
    · exact absurd hc (by simp [Reaction.nothing])
  | yankToPosition =>
    unfold Action.yankToPosition at hc
    split at hc
    · obtain ⟨-, rfl⟩ := Action.finish_command hc
      trivial
    · exact absurd hc (by simp [Reaction.nothing])
  | nextMatch _ | dotRepeat =>
    obtain ⟨-, -, rfl⟩ := Option.map_eq_some_iff.mp hc
    trivial
  | insertMode => exact absurd hc (by simp [Action.insertMode, Reaction.move])
  | visualMode => exact absurd hc (by simp [Action.visualMode, Reaction.move])
  | commandMode => exact absurd hc (by simp [Action.commandMode, Reaction.move])
  | search _ => exact absurd hc (by simp [Action.search, Reaction.move])
  | escape _ => exact absurd hc (by simp [Action.escape, Reaction.move])

namespace State

variable {s : State} {settings : Settings} {input : Input} {c : Command}

theorem react_fromKeys (hc : (s.react .default settings input).2 = some c) : c.FromKeys := by
  rcases s.react_default settings input with ⟨r, hb, heq⟩ | ⟨_, _, _, heq⟩ | ⟨-, heq⟩
  · rw [heq, execute_snd] at hc
    exact hb.fromKeys hc
  · rw [heq] at hc
    exact absurd hc (by simp)
  · rw [heq] at hc
    obtain ⟨_, _, _, _, -, -, hsearch⟩ := s.searchInput_eq input settings.segmentation
    obtain ⟨_, rfl⟩ := hsearch c hc
    trivial

/-- **What a step sends** comes from keys, or is news. -/
theorem fromKeys_or_isNews_of_mem (hc : c ∈ (s.step .default settings input).2) :
    c.FromKeys ∨ c.IsNews := by
  rcases List.mem_append.mp hc with hc | hc
  · exact .inl (react_fromKeys (Option.mem_toList.mp hc))
  · exact .inr (isNews_of_mem hc)

end State

end ModalStack
