/-
# The application stays in step with its engine

The engine predicts how deep the stack will be, and the application does the work and reports
the depth only after commands that it takes to resize the stack.  Still the two never
disagree: whatever is typed, the depth that the engine believes in is the number of notes, and
no index that the application computes lies below the first note or beyond the last, but for
look-ups on a stack without notes, which may miss.

What makes this work is said in two places.  `State.Announces` is what an input of the engine
promises: a command fits the state it was sent from, the depth stays unless the command makes
the application report it, and what the application edits is edited in insert mode only.
`NoteApp.InStepAfter` is what the application keeps while it carries out the commands: it is in
step, but for a depth that it has yet to report and an end of editing that it has yet to hear
of.
-/
import ModalStack.Proofs.CheckedNotes
import ModalStack.Proofs.Following

namespace ModalStack

/-! ## 1. What an input promises -/

/-- What a host relies on when the engine went from `s` to `t` and sent a command. -/
structure State.Announces (s t : State) (sent : Option Command) : Prop where
  bounded : t.Bounded
  fits : ∀ c ∈ sent, c.Fits s t.mode
  depth : (∀ c ∈ sent, NoteStack.resizes c = false) → t.depth = s.depth
  inserted : s.mode = .insert → sent = none ∧ (t.mode = .insert ∨ t.mode = .normal)

/-- What a host hears besides: news, and among them that insert mode was left for normal mode. -/
structure State.Tells (s t : State) (news : List Command) : Prop where
  isNews : ∀ c ∈ news, c.IsNews
  left : s.mode = .insert → t.mode = .normal → .modeChange .normal ∈ news

theorem State.tells_news (s t : State) : s.Tells t (news s t) where
  isNews _ hc := isNews_of_mem hc
  left hi hn := by
    have hne : t.mode ≠ s.mode := by
      rw [hi, hn]
      decide
    exact hn ▸ modeChange_mem_news hne

/-- What is removed from the stack resizes it. -/
theorem NoteStack.isRemoval_eq_false {c : Command} (h : resizes c = false) :
    c.isRemoval = false := by
  cases c with
  | deleteItems _ _ | deleteToPosition _ _ _ => exact absurd h (by simp [resizes])
  | _ => rfl

/-- Insert mode is left by escaping it, and that sends nothing. -/
theorem Bound.of_insert {i : Invocation} {run : Invocation → Reaction} (hb : Bound .insert run) :
    (run i).command = none ∧ ((run i).after i.state).mode = .normal := by
  cases hb with
  | escape _ => exact ⟨rfl, rfl⟩
  | moveDown hm | moveUp hm | gotoPosition hm | gotoBottom hm | gotoTop hm | delete hm | yank hm
  | change hm =>
    rcases hm with hm | hm
    · exact absurd hm (by decide)
    · exact absurd hm (by decide)

/-- The one command of a search promises nothing. -/
theorem State.searchInput_announces {s : State} (h : s.Bounded) (hm : s.mode = .search)
    (input : Input) (segmentation : Text.Segmentation) :
    s.Announces (s.searchInput input segmentation).1 (s.searchInput input segmentation).2 := by
  have hbounded : (s.searchInput input segmentation).1.Bounded :=
    h.searchInput hm input segmentation
  obtain ⟨mode, _, _, _, -, heq, hsearch⟩ := s.searchInput_eq input segmentation
  refine ⟨hbounded, ?_, ?_, ?_⟩
  · rintro c hc
    obtain ⟨_, rfl⟩ := hsearch c hc
    trivial
  · intro _
    rw [heq]
  · intro hi
    exact absurd hi (by rw [hm]; decide)

/-- **What every input promises.** -/
theorem State.Bounded.announces {s : State} (h : s.Bounded) (settings : Settings)
    (input : Input) :
    s.Announces (s.react .default settings input).1 (s.react .default settings input).2 := by
  have hbounded : (s.react .default settings input).1.Bounded := h.react settings input
  have htravels := h.travels settings input
  rcases s.react_default settings input with ⟨r, hb, heq⟩ | ⟨_, _, _, heq⟩ | ⟨hm, heq⟩
  · rw [heq] at hbounded htravels ⊢
    refine ⟨hbounded, ?_, ?_, ?_⟩
    · rintro c hc
      rw [execute_mode]
      exact @Bound.fits (r.invocation s settings) _ _ hb h c hc
    · intro hc
      exact htravels.depth_eq fun c hsent => NoteStack.isRemoval_eq_false (hc c hsent)
    · intro hi
      rw [hi] at hb
      obtain ⟨hsent, hmode⟩ := @Bound.of_insert (r.invocation s settings) _ hb
      exact ⟨hsent, .inr (by rw [execute_mode]; exact hmode)⟩
  · rw [heq] at hbounded ⊢
    exact ⟨hbounded, fun _ hc => absurd hc (by simp), fun _ => rfl, fun hi => ⟨rfl, .inl hi⟩⟩
  · rw [heq]
    exact searchInput_announces h hm input _

/-- A command line, submitted in command mode, promises the same. -/
theorem State.Bounded.announces_line {s : State} (h : s.Bounded) (hm : s.mode = .command)
    (line : String) : s.Announces s.afterLine (CommandLine.parse line) where
  bounded := h.afterLine
  fits c hc := by
    rcases CommandLine.parse_eq_some hc with ⟨_, rfl⟩ | ⟨_, rfl⟩ | rfl
    · trivial
    · trivial
    · trivial
  depth _ := rfl
  inserted hi := absurd hi (by rw [hm]; decide)

/-! ## 2. The invariant -/

namespace NoteApp

/-- The application will be in step once it has heard the news and, if the stack was resized,
has reported its depth. -/
structure InStepAfter (news : List Command) (resized : Bool) (app : NoteApp) : Prop where
  keymaps : app.engine.keymaps = .default
  bounded : app.engine.state.Bounded
  depth : resized = false → app.engine.state.depth = app.stack.items.length
  edited : ∀ k ∈ app.editing, k < max 1 app.stack.items.length
  inserting : ∀ k ∈ app.editing,
    app.engine.state.mode = .insert ∨ .modeChange .normal ∈ news

/-- The application is in step with its engine. -/
abbrev InStep (app : NoteApp) : Prop := app.InStepAfter [] false

variable {app : NoteApp} {news : List Command} {resized : Bool} {c : Command}

/-- As long as nothing is edited, the depth is all. -/
theorem InStepAfter.of_unedited (hk : app.engine.keymaps = .default)
    (hb : app.engine.state.Bounded)
    (hd : resized = false → app.engine.state.depth = app.stack.items.length)
    (hed : app.editing = none) : app.InStepAfter news resized where
  keymaps := hk
  bounded := hb
  depth := hd
  edited := by rw [hed]; exact fun _ hk => absurd hk (by simp)
  inserting := by rw [hed]; exact fun _ hk => absurd hk (by simp)

theorem InStepAfter.editing_eq_none (h : app.InStep) (hm : app.engine.state.mode ≠ .insert) :
    app.editing = none := by
  cases hk : app.editing with
  | none => rfl
  | some k =>
    rcases h.inserting k hk with hi | hi
    · exact absurd hi hm
    · exact absurd hi (by simp)

/-! ## 3. Carrying out commands -/

theorem follow?_eq {s : State} {mode : Mode} (h : c.Fits s mode) (app : NoteApp) :
    app.follow? c = .ok (app.follow c) := by
  cases c with
  | openItem position above =>
    simp only [follow?]
    rw [NoteStack.openIndex?_eq h.1]
    rfl
  | changeItems positions register =>
    obtain ⟨p, rest, rfl⟩ := List.exists_cons_of_ne_nil h.1.ne_nil
    have hindex : NoteStack.index? p = .ok (p - 1) :=
      NoteStack.index?_eq (h.1.one_le p List.mem_cons_self)
    simp only [follow?, List.head?_cons, Option.mapM_some]
    rw [hindex]
    rfl
  | _ => rfl

theorem carryOut?_eq {s : State} {mode : Mode} (h : c.Fits s mode)
    (hlen : app.stack.items.length = s.depth) : app.carryOut? c = .ok (app.carryOut c) := by
  unfold carryOut?
  rw [NoteStack.applyCommand?_eq h hlen, ok_bind, follow?_eq h]
  rfl

namespace InStepAfter

/-- Switching workspaces changes notes and depth together. -/
theorem switchWorkspace (h : app.InStepAfter news false) (hed : app.editing = none)
    (name : String) : (app.switchWorkspace name).InStepAfter news false := by
  unfold NoteApp.switchWorkspace
  split
  · exact ⟨h.keymaps, h.bounded, h.depth, h.edited, h.inserting⟩
  · exact of_unedited h.keymaps (h.bounded.withDepth _) (fun _ => rfl) hed

/-- News that change nothing here bring the rest of them nearer. -/
theorem next {app' : NoteApp} (h : app.InStepAfter (c :: news) resized)
    (hc : c ≠ .modeChange .normal) (hengine : app'.engine = app.engine)
    (hstack : app'.stack = app.stack) (hediting : app'.editing = app.editing) :
    app'.InStepAfter news resized where
  keymaps := by rw [hengine]; exact h.keymaps
  bounded := by rw [hengine]; exact h.bounded
  depth := by rw [hengine, hstack]; exact h.depth
  edited := by rw [hediting, hstack]; exact h.edited
  inserting := by
    rw [hediting, hengine]
    intro k hk
    rcases h.inserting k hk with hi | hi
    · exact .inl hi
    · rcases List.mem_cons.mp hi with hi | hi
      · exact absurd hi.symm hc
      · exact .inr hi

/-- News reach the application one by one. -/
theorem news_cons (h : app.InStepAfter (c :: news) resized) (hc : c.IsNews) :
    app.carryOut? c = .ok (app.carryOut c) ∧ (app.carryOut c).InStepAfter news resized := by
  cases c with
  | modeChange mode =>
    cases mode with
    | normal => exact ⟨rfl, of_unedited h.keymaps h.bounded h.depth rfl⟩
    | _ => exact ⟨rfl, h.next (by simp) rfl rfl rfl⟩
  | selectionChange _ | bufferUpdate _ => exact ⟨rfl, h.next (by simp) rfl rfl rfl⟩
  | _ => exact absurd hc id

theorem news_all (h : app.InStepAfter news resized) (hnews : ∀ c ∈ news, c.IsNews) :
    news.foldlM carryOut? app = .ok (news.foldl carryOut app) ∧
      (news.foldl carryOut app).InStepAfter [] resized := by
  induction news generalizing app with
  | nil => exact ⟨rfl, h⟩
  | cons c rest ih =>
    obtain ⟨hok, hnext⟩ := h.news_cons (hnews c List.mem_cons_self)
    rw [List.foldlM_cons, hok]
    exact ih hnext fun d hd => hnews d (List.mem_cons_of_mem c hd)

/-- A report of the depth brings the engine into step. -/
theorem report (h : app.InStepAfter [] true) :
    { app with engine := app.engine.setDepth app.stack.items.length }.InStep :=
  ⟨h.keymaps, h.bounded.withDepth _, fun _ => rfl, h.edited, h.inserting⟩

end InStepAfter

section

variable {engine : Engine NoteListener}

/-- **What an action sent is carried out**, and leaves nothing open but its news and, if it
resized the stack, the report of the depth. -/
theorem InStepAfter.sent (h : app.InStep) (hk : engine.keymaps = .default)
    (hs : app.engine.state.Announces engine.state (some c)) (news : List Command) :
    { app with engine := engine }.carryOut? c = .ok ({ app with engine := engine }.carryOut c) ∧
      ({ app with engine := engine }.carryOut c).InStepAfter news (NoteStack.resizes c) := by
  have hfits : c.Fits app.engine.state engine.state.mode := hs.fits c rfl
  have hlen : app.stack.items.length = app.engine.state.depth := (h.depth rfl).symm
  have hed : app.editing = none := by
    -- from insert mode nothing is sent
    refine h.editing_eq_none fun hi => ?_
    exact absurd (hs.inserted hi).1 (by simp)
  have hdepth : NoteStack.resizes c = false →
      engine.state.depth = (app.stack.apply c).items.length := by
    intro hr
    rw [NoteStack.length_apply hfits hlen hr, hlen]
    refine hs.depth fun d hd => ?_
    obtain rfl := Option.some.inj hd
    exact hr
  have hplain : ∀ app' : NoteApp, app'.engine = engine → app'.stack = app.stack.apply c →
      app'.editing = none → app'.InStepAfter news (NoteStack.resizes c) := by
    rintro app' rfl hstack hnone
    exact InStepAfter.of_unedited hk hs.bounded (by rw [hstack]; exact hdepth) hnone
  refine ⟨carryOut?_eq hfits hlen, ?_⟩
  cases c with
  | switchWorkspace name =>
    exact (hplain { app with engine := engine } rfl rfl hed).switchWorkspace hed name
  | createWorkspace name =>
    have hadd : ({ app with engine := engine }.addWorkspace name).InStepAfter news false ∧
        ({ app with engine := engine }.addWorkspace name).editing = none := by
      unfold addWorkspace
      split
      · exact ⟨hplain _ rfl rfl hed, hed⟩
      · exact ⟨hplain _ rfl rfl hed, hed⟩
    exact hadd.1.switchWorkspace hadd.2 name
  | openItem position above =>
    refine ⟨hk, hs.bounded, fun hr => absurd hr (by simp [NoteStack.resizes]), ?_, ?_⟩
    · rintro k hk
      obtain rfl := Option.some.inj hk
      simp only [carryOut, follow]
      omega
    · exact fun _ _ => .inl hfits.2
  | changeItems positions register =>
    refine ⟨hk, hs.bounded, hdepth, ?_, fun _ _ => .inl hfits.2⟩
    rintro k hk
    obtain ⟨p, hp, rfl⟩ := Option.map_eq_some_iff.mp hk
    have h₁ : 1 ≤ p := hfits.1.one_le p (List.mem_of_head? hp)
    have h₂ : p ≤ max 1 app.engine.state.depth := hfits.1.le_depth p (List.mem_of_head? hp)
    have hsame : (app.stack.apply (.changeItems positions register)).items.length
        = app.engine.state.depth := by
      rw [NoteStack.length_apply hfits hlen rfl, hlen]
    simp only [carryOut, follow, hsame]
    omega
  | modeChange mode =>
    cases mode with
    | normal => exact hplain _ rfl rfl rfl
    | _ => exact hplain _ rfl rfl hed
  | _ => exact hplain _ rfl rfl hed

theorem any_resizes_news (hnews : ∀ c ∈ news, c.IsNews) :
    news.any NoteStack.resizes = false := by
  rw [List.any_eq_false]
  intro c hc
  have hn : c.IsNews := hnews c hc
  cases c with
  | selectionChange _ | modeChange _ | bufferUpdate _ => simp [NoteStack.resizes]
  | _ => exact absurd hn id

/-- The commands of an input, without the report of the depth. -/
theorem InStepAfter.commands {sent : Option Command} (h : app.InStep)
    (hk : engine.keymaps = .default) (hs : app.engine.state.Announces engine.state sent)
    (hnews : app.engine.state.Tells engine.state news) :
    (sent.toList ++ news).foldlM carryOut? { app with engine := engine }
        = .ok ((sent.toList ++ news).foldl carryOut { app with engine := engine }) ∧
      ((sent.toList ++ news).foldl carryOut { app with engine := engine }).InStepAfter []
        ((sent.toList ++ news).any NoteStack.resizes) := by
  cases sent with
  | none =>
    have hmoved : { app with engine := engine }.InStepAfter news false := by
      refine ⟨hk, hs.bounded, ?_, h.edited, ?_⟩
      · intro _
        rw [hs.depth fun _ hc => absurd hc (by simp)]
        exact h.depth rfl
      · intro k hk
        have hi : app.engine.state.mode = .insert := by
          rcases h.inserting k hk with hi | hi
          · exact hi
          · exact absurd hi (by simp)
        rcases (hs.inserted hi).2 with hm | hm
        · exact .inl hm
        · exact .inr (hnews.left hi hm)
    rw [Option.toList_none, List.nil_append, any_resizes_news hnews.isNews]
    exact hmoved.news_all hnews.isNews
  | some c =>
    obtain ⟨hok, hafter⟩ := h.sent hk hs news
    rw [Option.toList_some, List.singleton_append, List.foldlM_cons, hok, List.any_cons,
      any_resizes_news hnews.isNews, Bool.or_false]
    exact hafter.news_all hnews.isNews

/-- **The commands of an input keep the application in step.** -/
theorem InStep.carryOutAll {sent : Option Command} (h : app.InStep)
    (hk : engine.keymaps = .default) (hs : app.engine.state.Announces engine.state sent)
    (hnews : app.engine.state.Tells engine.state news) :
    { app with engine := engine }.carryOutAll? (sent.toList ++ news)
        = .ok ({ app with engine := engine }.carryOutAll (sent.toList ++ news)) ∧
      ({ app with engine := engine }.carryOutAll (sent.toList ++ news)).InStep := by
  obtain ⟨hok, hafter⟩ := h.commands hk hs hnews
  unfold carryOutAll? NoteApp.carryOutAll
  rw [hok, ok_bind]
  cases hr : (sent.toList ++ news).any NoteStack.resizes with
  | true =>
    rw [hr] at hafter
    exact ⟨rfl, hafter.report⟩
  | false =>
    rw [hr] at hafter
    exact ⟨rfl, hafter⟩

end

/-! ## 4. Keys -/

/-- Hearing changes the status line only. -/
theorem hear_eq (app : NoteApp) (deliveries : List (Delivery NoteListener)) :
    ∃ status, app.hear deliveries = { app with status := status } := by
  induction deliveries generalizing app with
  | nil => exact ⟨app.status, rfl⟩
  | cons d rest ih =>
    unfold hear
    rw [List.foldl_cons]
    split
    · obtain ⟨status, heq⟩ := ih { app with status := d.command.written }
      exact ⟨status, heq⟩
    · exact ih app

namespace InStep

/-- Carrying out a report keeps the application in step. -/
theorem afterReport {result : Engine NoteListener × Report NoteListener}
    {sent : Option Command} (h : app.InStep) (hk : result.1.keymaps = .default)
    (hs : app.engine.state.Announces result.1.state sent)
    (hcommands : result.2.commands = sent.toList ++ news)
    (hnews : app.engine.state.Tells result.1.state news) :
    app.afterReport? result = .ok (app.afterReport result) ∧ (app.afterReport result).InStep := by
  unfold afterReport? NoteApp.afterReport
  obtain ⟨status, heq⟩ := hear_eq { app with engine := result.1 } result.2.deliveries
  rw [heq, hcommands]
  have hheard : { app with status := status }.InStep :=
    ⟨h.keymaps, h.bounded, h.depth, h.edited, h.inserting⟩
  exact hheard.carryOutAll hk hs hnews

/-- A key that the engine takes. -/
theorem takeKey (h : app.InStep) (press : KeyPress)
    (ht : (app.engine.handleInput (.key press)).2.handled = true) :
    app.afterReport? (app.engine.handleInput (.key press))
        = .ok (app.afterReport (app.engine.handleInput (.key press))) ∧
      (app.afterReport (app.engine.handleInput (.key press))).InStep := by
  unfold Engine.handleInput Engine.handleEvent at ht ⊢
  split at ht
  · rename_i htakes
    rw [if_pos htakes]
    have hs := h.bounded.announces app.engine.settings (.key press)
    rw [← h.keymaps] at hs
    exact h.afterReport h.keymaps hs rfl (State.tells_news _ _)
  · exact absurd ht (by simp)

/-- A key that is typed: what insert mode types into is there, unless there are no notes. -/
theorem typeKey (h : app.InStep) (press : KeyPress) :
    app.typeKey? press = .ok (app.typeKey press) ∧ (app.typeKey press).InStep := by
  unfold typeKey? NoteApp.typeKey
  cases hm : app.engine.state.mode with
  | insert =>
    have hcursor : NoteStack.index? app.engine.state.position
        = .ok (app.engine.state.position - 1) := NoteStack.index?_eq h.bounded.one_le
    have hedited : app.editedIndex < max 1 app.stack.items.length := by
      unfold editedIndex
      cases hk : app.editing with
      | none =>
        have hle : app.engine.state.position ≤ max 1 app.engine.state.depth := h.bounded.le_depth
        have hlen : app.engine.state.depth = app.stack.items.length := h.depth rfl
        rw [Option.getD_none]
        omega
      | some k => exact h.edited k hk
    have hlook := NoteStack.look?_eq hedited
    unfold editedIndex at hlook
    refine ⟨?_, h.keymaps, h.bounded, ?_, ?_, h.inserting⟩
    · simp only
      rw [hcursor, ok_bind, hlook]
      rfl
    · intro _
      rw [List.length_modify]
      exact h.depth rfl
    · rw [List.length_modify]
      exact h.edited
  | _ => exact ⟨rfl, h.keymaps, h.bounded, h.depth, h.edited, h.inserting⟩

/-- The command line is submitted from command mode. -/
theorem submit (h : app.InStep) (hm : app.engine.state.mode = .command) :
    app.submit? = .ok app.submit ∧ app.submit.InStep := by
  have hcleared : { app with commandLine := "" }.InStep :=
    ⟨h.keymaps, h.bounded, h.depth, h.edited, h.inserting⟩
  unfold submit? NoteApp.submit
  simp only
  split
  · exact ⟨rfl, h.keymaps, h.bounded, h.depth, h.edited, h.inserting⟩
  · have hnews : app.engine.state.Tells app.engine.state.afterLine
        (if app.engine.state.mode ≠ .normal then [.modeChange .normal] else []) := by
      rw [hm]
      refine ⟨?_, fun hi => absurd hi (by rw [hm]; decide)⟩
      intro c hc
      obtain rfl := List.mem_singleton.mp hc
      trivial
    exact hcleared.afterReport h.keymaps (h.bounded.announces_line hm app.commandLine) rfl hnews

/-- **A key press keeps the application in step**, and no index faults. -/
theorem handlePress (h : app.InStep) (press : KeyPress) :
    app.handlePress? press = .ok (app.handlePress press) ∧ (app.handlePress press).InStep := by
  unfold handlePress? NoteApp.handlePress
  by_cases hsubmit : app.engine.state.mode = .command ∧ press.code = .enter
  · rw [if_pos hsubmit, if_pos hsubmit]
    exact h.submit hsubmit.1
  · rw [if_neg hsubmit, if_neg hsubmit]
    by_cases ht : (app.engine.handleInput (.key press)).2.handled = true
    · simp only [if_pos ht]
      exact h.takeKey press ht
    · simp only [if_neg ht]
      exact h.typeKey press

/-- The same for a press as the terminal reports it. -/
theorem handle (h : app.InStep) (press : TerminalPress) :
    app.handle? press = .ok (app.handle press) ∧ (app.handle press).InStep := by
  unfold handle? NoteApp.handle
  cases press.toPress? with
  | none => exact ⟨rfl, h⟩
  | some known => exact h.handlePress known

/-- The application starts in step. -/
theorem ofItems (items : List String) : (NoteApp.ofItems items).InStep :=
  InStepAfter.of_unedited rfl (State.Bounded.start { depth := items.length }) (fun _ => rfl) rfl

end InStep

/-! ## 5. Every run -/

/-- **The application and its engine never disagree.**  Whatever is typed after the start: no
index that is computed on the way lies below the first note, and none is used on a list that
does not have it, but that a look-up may find nothing on a stack without notes
(`NoteStack.look?`); and then the engine believes in as many notes as there are, with the cursor
on one of them, or at 1 if there are none. -/
theorem start_in_step (presses : List TerminalPress) :
    start.handleAll? presses = .ok (start.handleAll presses) ∧
      (start.handleAll presses).engine.state.depth
        = (start.handleAll presses).stack.items.length ∧
      1 ≤ (start.handleAll presses).engine.state.position ∧
      (start.handleAll presses).engine.state.position
        ≤ max (start.handleAll presses).stack.items.length 1 := by
  have hstart : start.InStep := InStep.ofItems welcome
  obtain ⟨hok, hstep⟩ : start.handleAll? presses = .ok (start.handleAll presses) ∧
      (start.handleAll presses).InStep :=
    foldlM_eq_ok (P := InStep) (fun press _ _ h => h.handle press) hstart
  have hdepth : (start.handleAll presses).engine.state.depth
      = (start.handleAll presses).stack.items.length := hstep.depth rfl
  refine ⟨hok, hdepth, hstep.bounded.one_le, ?_⟩
  rw [← hdepth, Nat.max_comm]
  exact hstep.bounded.le_depth

end NoteApp

end ModalStack
