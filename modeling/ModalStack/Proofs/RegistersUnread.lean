/-
# The registers are not read

What a register holds is the host's business.  The engine keeps what it is told for whoever asks,
but no action, no key and no line looks at it, so two runs that differ only in what was stored
cannot be told apart (`Engine.Alike.registers_unread`): every report is the same, and so is the
state but for the registers.

That a function does not read the registers is an equation (`State.IgnoresRegisters`): to change
them and then apply it is to apply it and then change them.  It is shown for the actions, for the
search and for the step, each from the one before.  With the registers unchanged the same equation
says that the function does not write them either.
-/
import ModalStack.Proofs.ActionInputs
import ModalStack.Proofs.Reachable
import ModalStack.Proofs.Turns

namespace ModalStack

/-! ## 1. States that differ in the registers -/

/-- The state with other contents of the registers. -/
def State.withRegisters (s : State) (registers : Table String (List String)) : State :=
  { s with registers := registers }

/-- To change the registers and then apply the function is to apply it and then change them. -/
def State.IgnoresRegisters {α : Type} (f : State → State × α) : Prop :=
  ∀ s registers, f (s.withRegisters registers) = ((f s).1.withRegisters registers, (f s).2)

namespace State

/-- What does not read the registers does not write them. -/
theorem IgnoresRegisters.registers {α : Type} {f : State → State × α} (h : IgnoresRegisters f)
    (s : State) : (f s).1.registers = s.registers := by
  have hown : f s = ((f s).1.withRegisters s.registers, (f s).2) := h s s.registers
  rw [hown]
  rfl

end State

/-! ## 2. Actions -/

/-- Other contents of the registers, and nothing else. -/
def Unseen.ofRegisters (contents : Table String (List String)) : Unseen where
  buffer := id
  keys := id
  count := id
  registers _ := contents
  buffer_empty := rfl
  keys_nil := rfl
  count_none := rfl

/-- **No action reads the registers.** -/
theorem Bound.ignoresRegisters {mode : Mode} {run : Invocation → Reaction} (hb : Bound mode run)
    (i : Invocation) : State.IgnoresRegisters (i.outcome run) :=
  fun s contents => hb.overlooks (.ofRegisters contents) i s

/-! ## 3. One input -/

namespace State

/-- Typing a search does not read them. -/
theorem searchInput_ignoresRegisters (input : Input) (segmentation : Text.Segmentation) :
    IgnoresRegisters (searchInput · input segmentation) := by
  cases input with
  | received c => exact fun _ _ => rfl
  | key press =>
    intro s contents
    have hquery : (s.withRegisters contents).currentQuery = s.currentQuery := rfl
    simp only [searchInput, searchPress, submitSearch, hquery]
    split
    · rfl
    · split
      · split
        · rfl
        · rfl
      · split
        · rfl
        · split
          · rfl
          · rfl

variable {settings : Settings}

theorem execute_ignoresRegisters {mode : Mode} {r : Resolved} (hb : Bound mode r.action.run) :
    IgnoresRegisters (execute · settings r) := by
  intro s contents
  obtain ⟨hafter, hcommand⟩ :=
    Prod.mk.inj (hb.ignoresRegisters (r.invocation s settings) s contents)
  refine Prod.ext ?_ hcommand
  simp only [execute_fst]
  have hafter : (r.reaction (s.withRegisters contents) settings).after (s.withRegisters contents)
      = ((r.reaction s settings).after s).withRegisters contents := hafter
  rw [hafter]
  rfl

variable {mode : Mode} {m : Keymap} {t : String}

theorem gather_ignoresRegisters (hm : m.All fun a => Bound mode a.run) :
    IgnoresRegisters (gather · m settings t) := by
  intro s contents
  have hkeys : (s.withRegisters contents).keys = s.keys := rfl
  simp only [gather, hkeys]
  split
  · rename_i r hr
    exact execute_ignoresRegisters (hm.resolveKeys hr) s contents
  · rfl
  · rfl

theorem lookUp_ignoresRegisters (hm : m.All fun a => Bound mode a.run) :
    IgnoresRegisters (lookUp · m settings t) := by
  intro s contents
  simp only [lookUp]
  split
  · rename_i a ha
    exact execute_ignoresRegisters (r := .bare a t) (hm.action? ha) s contents
  · split
    · rfl
    · rfl

/-- **No input reads the registers.** -/
theorem react_ignoresRegisters {keymaps : Keymaps} (hk : keymaps.OfLibrary) (input : Input) :
    IgnoresRegisters (react · keymaps settings input) := by
  intro s contents
  have hmode : (s.withRegisters contents).mode = s.mode := rfl
  have hgathers : (s.withRegisters contents).gathers = s.gathers := rfl
  simp only [react, hmode]
  split
  · exact searchInput_ignoresRegisters input _ s contents
  · rename_i m hm
    simp only [State.token, hgathers]
    split
    · exact gather_ignoresRegisters (hk.bound hm) s contents
    · exact lookUp_ignoresRegisters (hk.bound hm) s contents

theorem step_ignoresRegisters {keymaps : Keymaps} (hk : keymaps.OfLibrary) (input : Input) :
    IgnoresRegisters (step · keymaps settings input) := by
  intro s contents
  simp only [step, react_ignoresRegisters hk input s contents]
  rfl

end State

/-! ## 4. One operation -/

namespace Engine

variable {η : Type} {e : Engine η}

/-- The engine with other contents of the registers. -/
def withRegisters (e : Engine η) (registers : Table String (List String)) : Engine η :=
  { e with state := e.state.withRegisters registers }

/-- The operation stores something in a register. -/
def Operation.isStore : Operation → Bool
  | .storeRegister _ _ => true
  | _ => false

/-- **No operation reads the registers**, and only storing writes them. -/
theorem perform_withRegisters (hk : e.keymaps.OfLibrary) {op : Operation}
    (hop : op.isStore = false) (contents : Table String (List String)) :
    (e.withRegisters contents).perform op
      = ((e.perform op).1.withRegisters contents, (e.perform op).2) := by
  cases op with
  | event input context =>
    have htakes : (e.withRegisters contents).state.takes context input.press
        = e.state.takes context input.press := rfl
    have hstep : (e.withRegisters contents).state.step (e.withRegisters contents).keymaps
          (e.withRegisters contents).settings input
        = ((e.state.step e.keymaps e.settings input).1.withRegisters contents,
          (e.state.step e.keymaps e.settings input).2) :=
      State.step_ignoresRegisters hk input e.state contents
    simp only [perform, handleEvent, htakes]
    split
    · rw [hstep]
      rfl
    · rfl
  | submitLine _ | setDepth _ | setPendingCount _ => rfl
  | storeRegister _ _ => exact absurd hop (by simp [Operation.isStore])

theorem perform_registers (hk : e.keymaps.OfLibrary) {op : Operation} (hop : op.isStore = false) :
    (e.perform op).1.state.registers = e.state.registers := by
  have hown : e.perform op
      = ((e.perform op).1.withRegisters e.state.registers, (e.perform op).2) :=
    perform_withRegisters hk hop e.state.registers
  rw [hown]
  rfl

/-! ## 5. Two runs -/

/-- The engines are the same, but for what the registers hold. -/
def Alike (d e : Engine η) : Prop := ∃ contents, d = e.withRegisters contents

/-- What can be seen of a run: for every operation that stores nothing its report, and the state
behind it without the registers. -/
def observe (e : Engine η) : List Operation → List (Report η × State)
  | [] => []
  | op :: rest =>
    let next := e.perform op
    if op.isStore then next.1.observe rest
    else (next.2, next.1.state.withRegisters .empty) :: next.1.observe rest

/-- A run without the operations that store something. -/
def withoutStores (ops : List Operation) : List Operation := ops.filter fun op => !op.isStore

/-- **A run and the same run without its stores**, begun with any contents of the registers. -/
theorem observe_withoutStores (hk : e.keymaps.OfLibrary) (contents : Table String (List String))
    (ops : List Operation) :
    (e.withRegisters contents).observe ops = e.observe (withoutStores ops) ∧
      ((e.withRegisters contents).run ops).Alike (e.run (withoutStores ops)) := by
  induction ops generalizing e contents with
  | nil => exact ⟨rfl, contents, rfl⟩
  | cons op rest ih =>
    cases hop : op.isStore with
    | true =>
      -- storing leads to other contents, and to nothing that can be seen
      obtain ⟨contents', hstore⟩ :
          ∃ contents', ((e.withRegisters contents).perform op).1 = e.withRegisters contents' := by
        cases op with
        | storeRegister name items => exact ⟨contents.insert name items, rfl⟩
        | _ => exact absurd hop (by simp [Operation.isStore])
      have hrest : withoutStores (op :: rest) = withoutStores rest := by
        simp [withoutStores, hop]
      rw [observe, if_pos hop, run, hstore, hrest]
      exact ih hk contents'
    | false =>
      have hrest : withoutStores (op :: rest) = op :: withoutStores rest := by
        simp [withoutStores, hop]
      have hnext : (e.perform op).1.keymaps.OfLibrary := by rw [perform_keymaps]; exact hk
      obtain ⟨hobserve, hrun⟩ := ih hnext contents
      have hop' : ¬ op.isStore = true := by simp [hop]
      rw [hrest, observe, observe, run, run, perform_withRegisters hk hop contents,
        if_neg hop', if_neg hop', hobserve]
      exact ⟨rfl, hrun⟩

namespace Alike

variable {d : Engine η}

theorem symm (h : d.Alike e) : e.Alike d := by
  obtain ⟨_, rfl⟩ := h
  exact ⟨e.state.registers, rfl⟩

theorem trans {c : Engine η} (h : c.Alike d) (h' : d.Alike e) : c.Alike e := by
  obtain ⟨contents, rfl⟩ := h
  obtain ⟨_, rfl⟩ := h'
  exact ⟨contents, rfl⟩

/-- **The registers are not read.**  The keymaps lead to actions of the library, and two runs
begin at engines that differ in the registers at most, with the same operations but for what is
stored, when and how often.  Then nothing that can be seen tells them apart, and they end at
engines that differ in the registers at most.  Only storing changes the registers, and storing
sends no command. -/
theorem registers_unread (h : d.Alike e) (hk : e.keymaps.OfLibrary) {ops ops' : List Operation}
    (hops : withoutStores ops' = withoutStores ops) :
    (d.observe ops' = e.observe ops ∧ (d.run ops').Alike (e.run ops)) ∧
      (∀ before op, op.isStore = false →
        ((e.run before).perform op).1.state.registers = (e.run before).state.registers) ∧
      ∀ before op, op.isStore = true → ((e.run before).perform op).2.commands = [] := by
  refine ⟨?_, ?_, ?_⟩
  · obtain ⟨contents, rfl⟩ := h
    have hleft := observe_withoutStores hk contents ops'
    have hright := observe_withoutStores hk e.state.registers ops
    rw [hops] at hleft
    exact ⟨hleft.1.trans hright.1.symm, hleft.2.trans hright.2.symm⟩
  · intro before op hop
    exact perform_registers (by rw [run_keymaps]; exact hk) hop
  · intro before op hop
    cases op with
    | storeRegister _ _ => rfl
    | _ => exact absurd hop (by simp [Operation.isStore])

/-- Two items are yanked into a register and pasted from it.  In one run the register is stored
before and again in between, and another one at the end; in the other nothing is ever stored. -/
theorem registers_unread_on_paste :
    let e : Engine Unit := (Setup.start { depth := 3 }).run [.storeRegister "a" ["p"]]
    let d : Engine Unit := Setup.start { depth := 3 }
    let yank := typing ['"', 'a', '2', 'y', 'y']
    let paste := typing ['"', 'a', 'p']
    let ops := yank ++ [.storeRegister "a" ["q", "r"]] ++ paste ++ [.storeRegister "b" []]
    let ops' := yank ++ paste
    (d.Alike e ∧ e.keymaps.OfLibrary ∧ withoutStores ops' = withoutStores ops ∧
        ops' ≠ ops ∧ (e.run ops).state.registers ≠ (d.run ops').state.registers ∧
        .pasteItems "a" 1 1 ∈ (d.observe ops').flatMap (·.1.commands)) ∧
      (d.observe ops' = e.observe ops ∧ (d.run ops').Alike (e.run ops)) ∧
      (∀ before op, op.isStore = false →
        ((e.run before).perform op).1.state.registers = (e.run before).state.registers) ∧
      ∀ before op, op.isStore = true → ((e.run before).perform op).2.commands = [] := by
  intro e d yank paste ops ops'
  have hd : d.Alike e := ⟨.empty, rfl⟩
  have hk : e.keymaps.OfLibrary := Keymaps.default_ofLibrary
  have hops : withoutStores ops' = withoutStores ops := by decide +kernel
  exact ⟨⟨hd, hk, hops, by decide +kernel⟩, hd.registers_unread hk hops⟩

end Alike

end Engine

end ModalStack
