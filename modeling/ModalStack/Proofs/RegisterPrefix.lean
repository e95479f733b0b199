/-
# A register prefix names the register, and no more

A command may be typed behind a register prefix, `"` and the name of a register.  The prefix is
split off before anything else is looked at, so what is behind it resolves as it would alone, to
the same action with the same phrase and count (`Keymap.resolveKeys_behind`).

The actions are handed the name, and what they do with it is what the name is for: it goes to the
commands that move items to or from a register, and to the memory of the last register and the
last change.  With the name left out of these, the two runs cannot be told apart
(`Bound.upToRegister`, `State.execute_behind`).
-/
import ModalStack.Proofs.PendingKeys

namespace ModalStack

/-! ## 1. Resolving -/

/-- The same action, behind a register prefix. -/
def Resolved.behind (name : String) (r : Resolved) : Resolved :=
  { r with raw := "\"" ++ name ++ r.raw, register := some name }

/-- The same resolution, behind a register prefix. -/
def Resolution.behind (name : String) : Resolution → Resolution
  | .resolved r => .resolved (r.behind name)
  | .pending => .pending
  | .invalid => .invalid

section

variable {m : Keymap} {keys : List String} {name : String}

theorem joinTokens_behind (name : String) (keys : List String) :
    joinTokens ("\"" :: name :: keys) = "\"" ++ name ++ joinTokens keys := by
  rw [← String.toList_inj]
  simp [toList_joinTokens]

/-- What is behind the prefix is resolved without a look at it. -/
theorem Keymap.resolveBody_behind (m : Keymap) (raw name : String) (keys : List String) :
    m.resolveBody ("\"" ++ name ++ raw) (some name) keys
      = (m.resolveBody raw none keys).behind name := by
  simp only [resolveBody]
  split
  · rfl
  · split
    · rfl
    · split
      · rfl
      · rfl
      · rfl

/-- **Behind a register prefix keys resolve as they do alone.** -/
theorem Keymap.resolveKeys_behind (hname : isRegisterToken name = true) (hne : keys ≠ [])
    (hquote : keys.head? ≠ some "\"") :
    m.resolveKeys ("\"" :: name :: keys) = (m.resolveKeys keys).behind name := by
  rw [resolveKeys, splitRegisterKeys_of_name hname hne, joinTokens_behind, resolveKeys,
    splitRegisterKeys_of_head_ne hquote]
  exact m.resolveBody_behind _ name keys

end

/-! ## 2. Running -/

/-- The command without the name of the register. -/
def Command.upToRegister : Command → Command
  | .deleteItems positions _ => .deleteItems positions unnamedRegister
  | .yankItems positions _ => .yankItems positions unnamedRegister
  | .pasteItems _ position count => .pasteItems unnamedRegister position count
  | .deleteToPosition positions target _ => .deleteToPosition positions target unnamedRegister
  | .yankToPosition positions target _ => .yankToPosition positions target unnamedRegister
  | .changeItems positions _ => .changeItems positions unnamedRegister
  | c => c

/-- The state without the register of the last command that used one and of the last change, and
without the text of the last command, in which it is named. -/
def State.upToRegister (s : State) : State :=
  { s with
    activeRegister := none
    lastCommand := none
    lastChange := s.lastChange.map fun c => { c with register := none } }

/-- What a reaction leaves and sends, without the register. -/
def Reaction.upToRegister (reaction : Reaction) (s : State) : State × Option Command :=
  ((reaction.after s).upToRegister, reaction.command.map Command.upToRegister)

/-- Operations that touch the same and leave the same, up to the register, are told in the same
way. -/
theorem Action.finish_upToRegister (command : List Nat → String → Command) {o o' : Outcome}
    (hstate : o.state.upToRegister = o'.state.upToRegister) (haffected : o.affected = o'.affected)
    (hcommand : ∀ positions register register',
      (command positions register).upToRegister = (command positions register').upToRegister)
    (s : State) : (finish o command).upToRegister s = (finish o' command).upToRegister s := by
  unfold Reaction.upToRegister
  rw [finish_after, finish_after, hstate]
  refine Prod.ext rfl ?_
  unfold finish
  rw [haffected]
  split
  · rfl
  · exact congrArg some (hcommand _ _ _)

/-- **The name of the register makes no other difference** to what an action does. -/
theorem Bound.upToRegister {mode : Mode} {run : Invocation → Reaction} (hb : Bound mode run)
    (i : Invocation) (register : Option String) :
    (run { i with register := register }).upToRegister i.state
      = (run i).upToRegister i.state := by
  cases hb with
  | delete _ =>
    unfold Action.delete
    dsimp only
    split
    · exact Action.finish_upToRegister .deleteItems (by rfl) (by rfl) (fun _ _ _ => rfl) _
    · exact Action.finish_upToRegister .deleteItems (by rfl) (by rfl) (fun _ _ _ => rfl) _
  | yank _ =>
    unfold Action.yank
    dsimp only
    split
    · exact Action.finish_upToRegister .yankItems (by rfl) (by rfl) (fun _ _ _ => rfl) _
    · exact Action.finish_upToRegister .yankItems (by rfl) (by rfl) (fun _ _ _ => rfl) _
  | change _ =>
    exact Action.finish_upToRegister .changeItems (by rfl) (by rfl) (fun _ _ _ => rfl) _
  | deleteToPosition =>
    unfold Action.deleteToPosition
    dsimp only
    split
    · rename_i target _
      exact Action.finish_upToRegister (.deleteToPosition · (clamp target i.state.depth))
        (by rfl) (by rfl) (fun _ _ _ => rfl) _
    · rfl
  | yankToPosition =>
    unfold Action.yankToPosition
    dsimp only
    split
    · rename_i target _
      exact Action.finish_upToRegister (.yankToPosition · (clamp target i.state.depth))
        (by rfl) (by rfl) (fun _ _ _ => rfl) _
    · rfl
  | _ => rfl

namespace State

/-- Without the register, what a run action leaves is what the action left, with what was typed
spent, the command counted and the change remembered. -/
theorem execute_upToRegister (s : State) (settings : Settings) (r : Resolved) :
    (s.execute settings r).1.upToRegister =
      { ((r.reaction s settings).after s).upToRegister with
        buffer := ""
        keys := []
        pendingCount := none
        tick := wrap (s.tick + 1)
        lastChange :=
          if Change.isRepeatable r.body then some ⟨r.body, r.count.or s.pendingCount, none⟩
          else ((r.reaction s settings).after s).upToRegister.lastChange } := by
  rw [execute_fst]
  unfold upToRegister
  split
  · rfl
  · rfl

/-- **Behind a register prefix an action runs as it does alone**, up to the register. -/
theorem execute_behind {mode : Mode} {r : Resolved} (hb : Bound mode r.action.run) (s : State)
    (settings : Settings) (name : String) :
    (s.execute settings (r.behind name)).1.upToRegister
        = (s.execute settings r).1.upToRegister ∧
      (s.execute settings (r.behind name)).2.map Command.upToRegister
        = (s.execute settings r).2.map Command.upToRegister := by
  obtain ⟨hstate, hcommand⟩ := Prod.mk.inj (hb.upToRegister (r.invocation s settings) (some name))
  have hafter : (((r.behind name).reaction s settings).after s).upToRegister
      = ((r.reaction s settings).after s).upToRegister := hstate
  refine ⟨?_, hcommand⟩
  rw [execute_upToRegister, execute_upToRegister, hafter]
  rfl

end State

/-! ## 3. The prefix -/

/-- **A register prefix names the register, and no more.**  Some keys are typed, the first of them
no quote, and the same keys behind a register prefix.  In any keymap both resolve, or are pending,
or are refused alike, and what they resolve to has the same action, body, phrase and count.  Under
the default keymaps the two then run alike: from any state they lead to states that differ at most
in the register used last, in the text of the last command and in the register of the last change,
and they send commands that differ at most in the name of the register. -/
theorem Keymap.register_prefixed {name : String} {keys : List String}
    (hname : isRegisterToken name = true) (hne : keys ≠ []) (hquote : keys.head? ≠ some "\"") :
    (∀ m : Keymap, m.resolveKeys ("\"" :: name :: keys) = (m.resolveKeys keys).behind name) ∧
      ∀ mode m r, Keymaps.default.forMode? mode = some m → m.resolveKeys keys = .resolved r →
        m.resolveKeys ("\"" :: name :: keys) = .resolved (r.behind name) ∧
          ∀ (s : State) (settings : Settings),
            (s.execute settings (r.behind name)).1.upToRegister
                = (s.execute settings r).1.upToRegister ∧
              (s.execute settings (r.behind name)).2.map Command.upToRegister
                = (s.execute settings r).2.map Command.upToRegister := by
  refine ⟨fun m => resolveKeys_behind hname hne hquote, ?_⟩
  intro mode m r hm hr
  have hbound : Bound mode r.action.run := (Keymaps.default_all hm).resolveKeys hr
  refine ⟨?_, fun s settings => State.execute_behind hbound s settings name⟩
  rw [resolveKeys_behind hname hne hquote, hr]
  rfl

/-- Two items are deleted into register `a`. -/
theorem Keymap.register_prefixed_deletion :
    let keys := ["2", "d", "d"]
    let r : Resolved := ⟨⟨"delete", Action.delete⟩, "2dd", "2dd", none, some 2, none⟩
    let s : State := { depth := 5 }
    (isRegisterToken "a" = true ∧ keys ≠ [] ∧ keys.head? ≠ some "\"" ∧
        Keymaps.default.forMode? .normal = some defaultNormal ∧
        defaultNormal.resolveKeys keys = .resolved r) ∧
      defaultNormal.resolveKeys ("\"" :: "a" :: keys) = .resolved (r.behind "a") ∧
      (s.execute {} (r.behind "a")).1.upToRegister = (s.execute {} r).1.upToRegister ∧
      (s.execute {} (r.behind "a")).2.map Command.upToRegister
        = (s.execute {} r).2.map Command.upToRegister := by
  intro keys r s
  have hname : isRegisterToken "a" = true := by decide
  have hne : keys ≠ [] := by decide
  have hquote : keys.head? ≠ some "\"" := by decide
  have hr : defaultNormal.resolveKeys keys = .resolved r := rfl
  obtain ⟨-, hdefault⟩ := register_prefixed hname hne hquote
  obtain ⟨hresolved, hruns⟩ := hdefault .normal defaultNormal r rfl hr
  exact ⟨⟨hname, hne, hquote, rfl, hr⟩, hresolved, hruns s {}⟩

end ModalStack
