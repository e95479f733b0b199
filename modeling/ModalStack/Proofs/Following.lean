/-
# The cursor follows the commands

The engine moves its cursor and changes its depth without waiting for the host, and a host that
only hears the commands has to be able to follow.  Under the default keymaps it is: where a
command says that the cursor moved, it says where to; where it says that items were removed, the
cursor stays unless the stack is now too short for it; and where no command says either, nothing
has moved (`Engine.Reachable.cursor_follows`).

An action travels in one of three ways (`State.Travels`), and a case analysis over the actions
sorts them (`Bound.travels`).  The silent ways need a look: a deletion that touches nothing sends
no command and lowers the depth all the same, but then there was nothing to lower.

What a motion says is exact only on stacks whose positions fit in 64 bits with a sign.  Which way
an action travels does not depend on that.
-/
import ModalStack.Proofs.Origins

namespace ModalStack

/-! ## 1. What commands say of the cursor -/

namespace Command

/-- The command says that the cursor moves. -/
def isMotion : Command → Bool
  | .moveToPosition _ | .moveRelative _ | .moveToTop | .moveToBottom => true
  | _ => false

/-- The command says that items are removed. -/
def isRemoval : Command → Bool
  | .deleteItems _ _ | .deleteToPosition _ _ _ => true
  | _ => false

/-- Where the cursor is once the engine has gone from `s` to `t`, as the command says it. -/
def Places (s t : State) : Command → Prop
  | .moveToPosition position => t.position = position
  | .moveRelative offset => (t.position : Int) = s.position + offset
  | .moveToTop => t.position = max s.depth 1
  | .moveToBottom => t.position = 1
  | .deleteItems _ _ | .deleteToPosition _ _ _ => t.position = max 1 (min s.position t.depth)
  | _ => True

/-- The command says nothing of the cursor. -/
def Rests (c : Command) : Prop := c.isMotion = false ∧ c.isRemoval = false

theorem Rests.places {c : Command} (h : c.Rests) (s t : State) : c.Places s t := by
  obtain ⟨hmotion, hremoval⟩ := h
  cases c with
  | moveToPosition _ | moveRelative _ | moveToTop | moveToBottom =>
    exact absurd hmotion (by simp [isMotion])
  | deleteItems _ _ | deleteToPosition _ _ _ => exact absurd hremoval (by simp [isRemoval])
  | _ => trivial

theorem IsNews.rests {c : Command} (h : c.IsNews) : c.Rests := by
  cases c with
  | modeChange _ | bufferUpdate _ | selectionChange _ => exact ⟨rfl, rfl⟩
  | _ => exact absurd h id

/-- A place depends on the cursor and the depth alone. -/
theorem Places.congr {c : Command} {s t t' : State} (h : c.Places s t)
    (hp : t'.position = t.position) (hd : t'.depth = t.depth) : c.Places s t' := by
  cases c with
  | moveToPosition _ | moveToTop | moveToBottom => exact hp.trans h
  | moveRelative _ => rw [Places, hp]; exact h
  | deleteItems _ _ | deleteToPosition _ _ _ => rw [Places, hp, hd]; exact h
  | _ => trivial

end Command

/-! ## 2. The three ways to travel -/

/-- How cursor and depth go from `s` to `t` with the command that was sent. -/
inductive State.Travels (s t : State) : Option Command → Prop
  /-- Nothing moves, and nothing is said. -/
  | rested {sent : Option Command} : (∀ c ∈ sent, c.Rests) → t.position = s.position →
      t.depth = s.depth → Travels s t sent
  /-- The cursor moves on the same stack. -/
  | moved {c : Command} : c.isMotion = true → t.depth = s.depth →
      (s.depth ≤ maxSigned → c.Places s t) → Travels s t (some c)
  /-- Items are removed, and the cursor with them if it stood above what is left. -/
  | removed {c : Command} : c.isRemoval = true → c.Places s t → Travels s t (some c)

namespace State

variable {s t t' : State} {sent : Option Command}

theorem Travels.congr (h : s.Travels t sent) (hp : t'.position = t.position)
    (hd : t'.depth = t.depth) : s.Travels t' sent := by
  cases h with
  | rested hrests hpos hdepth => exact .rested hrests (hp.trans hpos) (hd.trans hdepth)
  | moved hc hdepth hplaces =>
    exact .moved hc (hd.trans hdepth) fun hle => (hplaces hle).congr hp hd
  | removed hc hplaces => exact .removed hc (hplaces.congr hp hd)

/-- The depth changes with a removal alone. -/
theorem Travels.depth_eq (h : s.Travels t sent) (hc : ∀ c ∈ sent, c.isRemoval = false) :
    t.depth = s.depth := by
  cases h with
  | rested _ _ hdepth => exact hdepth
  | moved _ hdepth _ => exact hdepth
  | removed hremoval _ => exact absurd hremoval (by simp [hc _ rfl])

/-- The cursor moves with a motion or a removal alone. -/
theorem Travels.position_eq (h : s.Travels t sent) (hc : ∀ c ∈ sent, c.Rests) :
    t.position = s.position := by
  cases h with
  | rested _ hpos _ => exact hpos
  | moved hmotion _ _ => exact absurd hmotion (by simp [(hc _ rfl).1])
  | removed hremoval _ => exact absurd hremoval (by simp [(hc _ rfl).2])

theorem Travels.places (h : s.Travels t sent) (hd : s.depth ≤ maxSigned) :
    ∀ c ∈ sent, c.Places s t := by
  intro c hc
  cases h with
  | rested hrests _ _ => exact (hrests c hc).places s t
  | moved _ _ hplaces =>
    obtain rfl := Option.some.inj hc
    exact hplaces hd
  | removed _ hplaces =>
    obtain rfl := Option.some.inj hc
    exact hplaces

/-! ## 3. How actions travel -/

namespace Bounded

/-- A cursor on a stack within the signed range is in that range. -/
theorem position_le_maxSigned (h : s.Bounded) (hd : s.depth ≤ maxSigned) :
    s.position ≤ maxSigned := by
  have hle : s.position ≤ max 1 s.depth := h.le_depth
  simp only [maxSigned] at hd ⊢
  omega

/-- Only on an empty stack nothing is touched. -/
theorem depth_eq_zero (h : s.Bounded) {count : Nat} (hnil : s.affectedPositions count = []) :
    s.depth = 0 := by
  by_cases hm : s.mode = .visual
  · obtain ⟨anchor, hsel, -, -⟩ := h.exists_selection hm
    have hmem : anchor ∈ s.affectedPositions count := by
      simp only [State.affectedPositions, hsel, Selection.low, Selection.high]
      exact mem_positionsBetween.mpr (by omega)
    rw [hnil] at hmem
    exact absurd hmem (by simp)
  · have hrun : s.runFromCursor (max count 1) = [] := by
      simpa only [State.affectedPositions, h.selection_eq_none hm] using hnil
    have hle : s.position ≤ max 1 s.depth := h.le_depth
    have hlen : (s.runFromCursor (max count 1)).length = 0 := by rw [hrun]; rfl
    rw [State.runFromCursor, if_neg (by omega), length_positionsBetween] at hlen
    omega

/-- How far a motion went is what it says. -/
theorem moveRelative_travels {i : Invocation} (h : i.state.Bounded) (offset : Int) :
    i.state.Travels ((Action.moveRelative i offset).after i.state)
      (Action.moveRelative i offset).command := by
  refine .moved rfl (i.state.moveBy_depth offset) fun hd => ?_
  have hbefore : i.state.position ≤ maxSigned := h.position_le_maxSigned hd
  have hdepth : (i.state.moveBy offset).depth ≤ maxSigned := by rw [moveBy_depth]; exact hd
  have hafter : (i.state.moveBy offset).position ≤ maxSigned :=
    (h.moveBy offset).position_le_maxSigned hdepth
  have hdifference : signedView ((i.state.moveBy offset).position - i.state.position)
      = (i.state.moveBy offset).position - i.state.position := by
    refine signedView_of_mem ?_ ?_
    · simp only [minSigned, maxSigned] at *; omega
    · simp only [maxSigned] at *; omega
  change ((i.state.moveBy offset).position : Int) = i.state.position
    + signedView (signedView (i.state.moveBy offset).position - signedView i.state.position)
  rw [signedView_natCast hbefore, signedView_natCast hafter, hdifference]
  omega

theorem gotoPosition_travels (i : Invocation) :
    i.state.Travels ((Action.gotoPosition i).after i.state) (Action.gotoPosition i).command :=
  .moved rfl (i.state.jumpTo_depth _) fun _ => rfl

theorem gotoBottom_travels {i : Invocation} (h : i.state.Bounded) :
    i.state.Travels ((Action.gotoBottom i).after i.state) (Action.gotoBottom i).command := by
  refine .moved rfl (i.state.jumpTo_depth _) fun hd => ?_
  have hjump : (i.state.jumpTo 1).position = clampSigned 1 i.state.depth :=
    jumpTo_position (h.position_le_maxSigned hd) (by decide) (by decide)
  have hone : clampSigned 1 i.state.depth = 1 := by
    simp only [clampSigned, maxSigned]
    omega
  exact hjump.trans hone

theorem gotoTop_travels {i : Invocation} (h : i.state.Bounded) :
    i.state.Travels ((Action.gotoTop i).after i.state) (Action.gotoTop i).command := by
  unfold Action.gotoTop
  split
  · exact gotoPosition_travels i
  · refine .moved rfl (i.state.jumpTo_depth _) fun hd => ?_
    have hjump : (i.state.jumpTo (signed i.state.depth)).position
        = clamp i.state.depth i.state.depth :=
      jumpTo_signed (h.position_le_maxSigned hd) hd i.state.depth
    have htop : clamp i.state.depth i.state.depth = max i.state.depth 1 := by
      simp only [clamp]
      omega
    exact hjump.trans htop

end Bounded

end State

/-- An operation that leaves cursor and depth alone, whether or not it touches anything. -/
theorem Action.finish_rested {s : State} {outcome : Outcome}
    {command : List Nat → String → Command}
    (hrests : ∀ positions register, (command positions register).Rests)
    (hp : outcome.state.position = s.position) (hd : outcome.state.depth = s.depth) :
    s.Travels ((finish outcome command).after s) (finish outcome command).command := by
  rw [finish_after]
  refine .rested ?_ hp hd
  intro c hc
  obtain ⟨-, rfl⟩ := finish_command hc
  exact hrests _ _

/-- A deletion: what it takes from the depth, it says; and it says nothing only where there is
nothing to take. -/
theorem Action.finish_removed {s : State} (h : s.Bounded) {outcome : Outcome} {removed : Nat}
    {command : List Nat → String → Command}
    (hremoval : ∀ positions register, (command positions register).isRemoval = true)
    (hd : outcome.state.depth = s.depth - removed)
    (hp : outcome.state.position = max (min s.position (s.depth - removed)) 1)
    (hsilent : outcome.affected = [] → removed = 0 ∨ s.depth = 0) :
    s.Travels ((finish outcome command).after s) (finish outcome command).command := by
  have hplace : outcome.state.position = max 1 (min s.position outcome.state.depth) := by
    rw [hp, hd, Nat.max_comm]
  have h₁ : 1 ≤ s.position := h.one_le
  have h₂ : s.position ≤ max 1 s.depth := h.le_depth
  unfold finish
  split
  · rename_i hempty
    have hnothing : removed = 0 ∨ s.depth = 0 := hsilent (List.isEmpty_iff.mp hempty)
    refine .rested (fun _ hc => absurd hc (by simp [Reaction.move])) ?_ ?_
    · change outcome.state.position = s.position
      omega
    · change outcome.state.depth = s.depth
      omega
  · have hsays : (command outcome.affected (registerOf outcome)).isRemoval = true :=
      hremoval _ _
    refine .removed hsays ?_
    cases hc : command outcome.affected (registerOf outcome) with
    | deleteItems _ _ | deleteToPosition _ _ _ => exact hplace
    | _ => exact absurd hsays (by simp [hc, Command.isRemoval])

open State.Bounded in
/-- **How every action travels.** -/
theorem Bound.travels {i : Invocation} {mode : Mode} {run : Invocation → Reaction}
    (hb : Bound mode run) (h : i.state.Bounded) :
    i.state.Travels ((run i).after i.state) (run i).command := by
  cases hb with
  | moveDown _ => exact moveRelative_travels h _
  | moveUp _ => exact moveRelative_travels h _
  | gotoPosition _ => exact gotoPosition_travels i
  | gotoBottom _ => exact gotoBottom_travels h
  | gotoTop _ => exact gotoTop_travels h
  | gotoNamed =>
    unfold Action.gotoNamed
    split
    · refine .rested ?_ rfl rfl
      intro c hc
      obtain rfl := Option.some.inj hc
      exact ⟨rfl, rfl⟩
    · exact .rested (fun _ hc => absurd hc (by simp [Reaction.nothing])) rfl rfl
  | delete _ =>
    unfold Action.delete
    split
    · rename_i start stop _
      refine Action.finish_removed h (fun _ _ => rfl) rfl rfl fun hnil => .inl ?_
      exact List.length_eq_zero_iff.mpr hnil
    · exact Action.finish_removed h (fun _ _ => rfl) rfl rfl fun hnil =>
        .inr (h.depth_eq_zero hnil)
  | deleteToPosition =>
    unfold Action.deleteToPosition
    split
    · refine Action.finish_removed h (fun _ _ => rfl) rfl rfl fun hnil => .inl ?_
      exact List.length_eq_zero_iff.mpr hnil
    · exact .rested (fun _ hc => absurd hc (by simp [Reaction.nothing])) rfl rfl
  | yank _ =>
    unfold Action.yank
    split
    · exact Action.finish_rested (fun _ _ => ⟨rfl, rfl⟩) rfl rfl
    · exact Action.finish_rested (fun _ _ => ⟨rfl, rfl⟩) rfl rfl
  | yankToPosition =>
    unfold Action.yankToPosition
    split
    · exact Action.finish_rested (fun _ _ => ⟨rfl, rfl⟩) rfl rfl
    · exact .rested (fun _ hc => absurd hc (by simp [Reaction.nothing])) rfl rfl
  | change _ | swap | rotate => exact Action.finish_rested (fun _ _ => ⟨rfl, rfl⟩) rfl rfl
  | paste _ | openItem _ =>
    refine .rested ?_ rfl rfl
    intro c hc
    obtain rfl := Option.some.inj hc
    exact ⟨rfl, rfl⟩
  | nextMatch _ | dotRepeat =>
    refine .rested ?_ rfl rfl
    intro c hc
    obtain ⟨-, -, rfl⟩ := Option.map_eq_some_iff.mp hc
    exact ⟨rfl, rfl⟩
  | insertMode | visualMode | commandMode | search _ | escape _ =>
    exact .rested (fun _ hc => absurd hc (by simp [Action.insertMode, Action.visualMode,
      Action.commandMode, Action.search, Action.escape, Reaction.move])) rfl rfl

/-! ## 4. How a step travels -/

/-- **How every input travels.** -/
theorem State.Bounded.travels {s : State} (h : s.Bounded) (settings : Settings) (input : Input) :
    s.Travels (s.react .default settings input).1 (s.react .default settings input).2 := by
  rcases s.react_default settings input with ⟨r, hb, heq⟩ | ⟨_, _, _, heq⟩ | ⟨-, heq⟩
  · rw [heq, execute_snd]
    have haction : s.Travels ((r.reaction s settings).after s) (r.reaction s settings).command :=
      @Bound.travels (r.invocation s settings) _ _ hb h
    exact haction.congr execute_position execute_depth
  · rw [heq]
    exact .rested (fun _ hc => absurd hc (by simp)) rfl rfl
  · rw [heq]
    obtain ⟨_, _, _, _, -, hstate, hsearch⟩ := s.searchInput_eq input settings.segmentation
    refine .rested ?_ (by rw [hstate]) (by rw [hstate])
    intro c hc
    obtain ⟨_, rfl⟩ := hsearch c hc
    exact ⟨rfl, rfl⟩

/-! ## 5. Every reachable engine -/

/-- **Cursor and depth follow the commands.**  Whatever a host has done to an engine with the
default keymaps, as long as the depth is in the signed range, and whatever is typed: the cursor
is where the commands say; without a motion and a removal among them it has not moved; and
without a removal the depth is the same. -/
theorem Engine.Reachable.cursor_follows {η : Type} {setup : Setup} {e : Engine η}
    (hk : setup.keymaps = .default) (hr : e.Reachable setup) (hd : e.state.depth ≤ maxSigned)
    (input : Input) (context : Context) :
    let result := e.handleEvent input context
    let s := e.state
    let t := result.1.state
    (∀ c ∈ result.2.commands, c.Places s t) ∧
      ((∀ c ∈ result.2.commands, c.isMotion = false ∧ c.isRemoval = false) →
        t.position = s.position) ∧
      ((∀ c ∈ result.2.commands, c.isRemoval = false) → t.depth = s.depth) := by
  intro result s t
  have hkeymaps : e.keymaps = .default := by rw [hr.keymaps, hk]
  rcases e.handleEvent_cases input context with ⟨-, hstate, hcommands⟩ | ⟨-, hstate, hcommands⟩
  · rw [hkeymaps] at hstate hcommands
    have htravels : s.Travels t (s.react .default e.settings input).2 := by
      have hreact : t = (s.react .default e.settings input).1 := hstate
      rw [hreact]
      exact (hr.bounded hk).travels e.settings input
    -- the news say nothing of the cursor, so what is sent before them decides
    have hsent : ∀ c ∈ (s.react .default e.settings input).2, c ∈ result.2.commands := by
      intro c hc
      rw [hcommands]
      exact List.mem_append_left _ (Option.mem_toList.mpr hc)
    refine ⟨?_, ?_, ?_⟩
    · intro c hc
      rw [hcommands] at hc
      rcases List.mem_append.mp hc with hc | hc
      · exact htravels.places hd c (Option.mem_toList.mp hc)
      · exact (State.isNews_of_mem hc).rests.places s t
    · intro hrest
      exact htravels.position_eq fun c hc => hrest c (hsent c hc)
    · intro hkept
      exact htravels.depth_eq fun c hc => hkept c (hsent c hc)
  · rw [hcommands]
    refine ⟨fun _ hc => absurd hc (by simp), fun _ => ?_, fun _ => ?_⟩
    · exact congrArg State.position hstate
    · exact congrArg State.depth hstate

/-- In visual mode three items of five are deleted, from the top down, and the cursor comes to
stand on the new top. -/
theorem Engine.Reachable.cursor_follows_deletion :
    let e : Engine Unit :=
      (Setup.start { depth := 5 }).run (Engine.typing ['G', 'v', 'k', 'k'])
    let result := e.handleEvent (.key { code := .char 'd' }) .stack
    let s := e.state
    let t := result.1.state
    (e.state.depth ≤ maxSigned ∧ Command.deleteItems [3, 4, 5] "\"" ∈ result.2.commands ∧
        s.position = 3 ∧ t.position = 2) ∧
      (∀ c ∈ result.2.commands, c.Places s t) ∧
      ((∀ c ∈ result.2.commands, c.isMotion = false ∧ c.isRemoval = false) →
        t.position = s.position) ∧
      ((∀ c ∈ result.2.commands, c.isRemoval = false) → t.depth = s.depth) := by
  intro e result s t
  have hd : e.state.depth ≤ maxSigned := by decide +kernel
  exact ⟨⟨hd, by decide +kernel⟩, cursor_follows rfl (Engine.Reachable.start.run _) hd _ _⟩

end ModalStack
