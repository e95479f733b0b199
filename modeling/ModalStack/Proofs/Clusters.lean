/-
# Backspaces peel clusters

A backspace cuts the pattern of a search at the offset where its last cluster begins, and the next
one cuts what is then left into clusters anew.  So two backspaces take away the last two clusters
only if the second finds the clusters that the first has left.  It does, with every segmentation
that follows the rules, for these never look further right than one character: the first clusters
of a text are the clusters of what they make up (`Text.Segmentation.Follows.clustersOf_take`).
After any number of backspaces the pattern is the leading clusters of what it was
(`Engine.backspaces_peel`).

That there are such segmentations is shown with the one that is at hand.  It finds the clusters in
one pass, with a summary of what was read (`Text.Cluster.Left`), and the summary knows of the text
in front just what the rules ask for (`Text.Cluster.keeps_after_iff`).
-/
import ModalStack.Proofs.ClusterRules
import ModalStack.Proofs.History
import ModalStack.Proofs.SearchTyping

namespace ModalStack.Text

open Cluster

/-! ## 1. Leading clusters -/

namespace Segmentation.Follows

variable {segmentation : Segmentation} {p : Properties} {text : String}

/-- **Leading clusters are the clusters of what they make up**, with their offsets. -/
theorem clustersOf_take (h : segmentation.Follows p) (text : String) (n : Nat) :
    segmentation.clustersOf (String.ofList (textOf ((segmentation.clustersOf text).take n)))
      = (segmentation.clustersOf text).take n := by
  obtain ⟨gs, hclusters, -, hgs⟩ := follows_iff.mp h text
  rw [hclusters, take_withOffsets, textOf_withOffsets]
  obtain ⟨gs', hclusters', hflatten, hgs'⟩ :=
    follows_iff.mp h (String.ofList (gs.take n).flatten)
  rw [String.toList_ofList] at hflatten
  rw [hclusters', hgs'.unique (hgs.take n) hflatten]

theorem toList_eq_append (h : segmentation.Follows p) {front back : List (Nat × String)}
    (hsplit : segmentation.clustersOf text = front ++ back) :
    text.toList = textOf front ++ textOf back := by
  rw [← h.textOf_eq, hsplit, textOf_append]

/-- A text can be cut wherever a cluster begins. -/
theorem isValid (h : segmentation.Follows p) {offset : Nat} {g : String}
    (hmem : (offset, g) ∈ segmentation.clustersOf text) :
    (⟨offset⟩ : String.Pos.Raw).IsValid text := by
  obtain ⟨front, back, hsplit⟩ := List.append_of_mem hmem
  rw [isValid_iff_cut?, h.offset_eq text front offset g back hsplit, h.toList_eq_append hsplit]
  exact ⟨_, _, cut?_append _ _⟩

/-- **A text loses its last cluster**, and nothing else. -/
theorem dropLast_eq (h : segmentation.Follows p) (text : String) :
    segmentation.dropLast text = String.ofList (textOf ((segmentation.clustersOf text).take
      ((segmentation.clustersOf text).length - 1))) := by
  rcases List.eq_nil_or_concat (segmentation.clustersOf text) with hnil | ⟨front, cluster, hsplit⟩
  · have htext : text.toList = [] := by rw [← h.textOf_eq, hnil]; rfl
    obtain rfl := String.toList_eq_nil_iff.mp htext
    simp [Segmentation.dropLast, hnil, textOf]
  · obtain ⟨offset, g⟩ := cluster
    rw [List.concat_eq_append] at hsplit
    have hcut : cut? text.toList offset = .ok (textOf front, g.toList) := by
      rw [h.offset_eq text front offset g [] hsplit, h.toList_eq_append hsplit, textOf_singleton]
      exact cut?_append _ _
    have hlast : (segmentation.clustersOf text).getLast? = some (offset, g) := by
      rw [hsplit, List.getLast?_append]
      rfl
    have hfront : (segmentation.clustersOf text).take ((segmentation.clustersOf text).length - 1)
        = front := by
      rw [← List.dropLast_eq_take, hsplit, List.dropLast_concat]
    simp only [Segmentation.dropLast, hlast, truncate, hcut, hfront]

/-- **It can lose one after the other.** -/
theorem foldl_dropLast (h : segmentation.Follows p) (text : String) (k : Nat) :
    (List.replicate k segmentation.dropLast).foldl (fun t edit => edit t) text
      = String.ofList (textOf ((segmentation.clustersOf text).take
          ((segmentation.clustersOf text).length - k))) := by
  induction k generalizing text with
  | zero => rw [Nat.sub_zero, List.take_length, h.textOf_eq, String.ofList_toList]; rfl
  | succ k ih =>
    rw [List.replicate_succ, List.foldl_cons, h.dropLast_eq, ih, h.clustersOf_take,
      List.take_take, List.length_take]
    congr 3
    omega

end Segmentation.Follows

/-! ## 2. A segmentation that follows the rules -/

namespace Cluster

variable {before : List Char} {c : Char}

/-- The kinds of characters, as most rules see them. -/
def Kind.breakClass : Kind → BreakClass
  | .plain | .consonant | .pictograph => .other
  | .carriageReturn => .carriageReturn
  | .lineFeed => .lineFeed
  | .control => .control
  | .extend | .linker | .nonJoiner => .extend
  | .joiner => .joiner
  | .spacing => .spacing
  | .prepended => .prepended
  | .regional => .regional
  | .leading => .leading
  | .vowel => .vowel
  | .trailing => .trailing
  | .openSyllable => .openSyllable
  | .closedSyllable => .closedSyllable

/-- The kinds of characters, as conjuncts see them. -/
def Kind.conjunctClass : Kind → ConjunctClass
  | .consonant => .consonant
  | .linker => .linker
  | .extend | .joiner => .extend
  | _ => .other

/-- The properties of characters by the tables of Unicode 17. -/
def Properties.unicode : Properties where
  breakClass c := (kind c).breakClass
  conjunctClass c := (kind c).conjunctClass
  pictographic c := kind c = .pictograph

/-- The text ends in a consonant and signs of a conjunct. -/
def EndsInConsonant (before : List Char) : Prop :=
  Since (fun _ c => (kind c).conjunctClass = .consonant)
    (fun _ c => (kind c).conjunctClass = .extend ∨ (kind c).conjunctClass = .linker) before

/-- The text ends in a pictograph and marks that extend it. -/
def EndsInPictograph (before : List Char) : Prop :=
  Since (fun _ c => kind c = .pictograph) (fun _ c => (kind c).breakClass = .extend) before

theorem endsInConjunct_iff_since : Properties.unicode.EndsInConjunct before ↔
    Since (fun front c => (kind c).conjunctClass = .linker ∧ EndsInConsonant front)
      (fun _ c => (kind c).conjunctClass = .extend ∨ (kind c).conjunctClass = .linker) before := by
  constructor
  · rintro ⟨front, c, signs, rfl, hc, hsigns, linker, hmem, hlinker⟩
    obtain ⟨first, last, rfl⟩ := List.append_of_mem hmem
    obtain ⟨hfirst, hlast⟩ := List.forall_mem_append.mp hsigns
    refine ⟨front ++ c :: first, linker, last, by simp, ⟨hlinker, ?_⟩, ?_⟩
    · exact since_iff_exists.mpr ⟨front, c, first, rfl, hc, hfirst⟩
    · rintro mid later rest rfl
      exact hlast later (by simp)
  · rintro ⟨start, linker, last, rfl, ⟨hlinker, hstart⟩, hlast⟩
    obtain ⟨front, c, first, rfl, hc, hfirst⟩ := since_iff_exists.mp hstart
    refine ⟨front, c, first ++ linker :: last, by simp, hc, ?_, linker, by simp, hlinker⟩
    refine List.forall_mem_append.mpr ⟨hfirst, List.forall_mem_cons.mpr ⟨.inr hlinker, ?_⟩⟩
    intro sign hsign
    obtain ⟨mid, rest, rfl⟩ := List.append_of_mem hsign
    exact hlast mid sign rest rfl

/-- Kinds have classes of their own, but for those without a part in the rules and for marks. -/
theorem Kind.eq_iff {k l : Kind} (h : l.breakClass ≠ .other ∧ l.breakClass ≠ .extend) :
    k = l ↔ k.breakClass = l.breakClass := by
  constructor
  · rintro rfl
    rfl
  · intro hclass
    cases l with
    | plain | consonant | pictograph => exact absurd rfl h.1
    | extend | linker | nonJoiner => exact absurd rfl h.2
    | _ => cases k with
      | _ => first | rfl | exact absurd hclass (by decide)

theorem endsInJoinedPictograph_iff : Properties.unicode.EndsInJoinedPictograph before ↔
    ∃ front joiner, before = front ++ [joiner] ∧ kind joiner = .joiner ∧
      EndsInPictograph front := by
  have hclass (c : Char) : kind c = .joiner ↔ (kind c).breakClass = .joiner :=
    Kind.eq_iff (l := .joiner) (by decide)
  constructor
  · rintro ⟨front, c, marks, joiner, rfl, hc, hmarks, hjoiner⟩
    exact ⟨front ++ c :: marks, joiner, by simp, (hclass joiner).mpr hjoiner,
      since_iff_exists.mpr ⟨front, c, marks, rfl, hc, hmarks⟩⟩
  · rintro ⟨start, joiner, rfl, hjoiner, hstart⟩
    obtain ⟨front, c, marks, rfl, hc, hmarks⟩ := since_iff_exists.mp hstart
    exact ⟨front, c, marks, joiner, by simp, hc, hmarks, (hclass joiner).mp hjoiner⟩

/-! ## 3. What the summary knows -/

/-- The summary of a text. -/
def Left.after (before : List Char) : Left :=
  before.foldl (fun left c => left.push (kind c)) .empty

theorem after_append_singleton (before : List Char) (c : Char) :
    Left.after (before ++ [c]) = (Left.after before).push (kind c) := List.foldl_concat _ _ _ _

theorem Kind.extends_iff {k : Kind} : k.extends = true ↔ k.breakClass = .extend := by
  cases k with
  | _ => decide

theorem after_pictograph (before : List Char) :
    (Left.after before).pictograph = true ↔ EndsInPictograph before :=
  foldl_iff_since (fun left : Left => left.pictograph = true) (by decide)
    (fun _ _ => by simp [Left.push, Kind.extends_iff]) before

theorem after_pictographJoined (before : List Char) :
    (Left.after before).pictographJoined = true ↔
      Properties.unicode.EndsInJoinedPictograph before := by
  rw [endsInJoinedPictograph_iff]
  rcases List.eq_nil_or_concat before with rfl | ⟨front, c, rfl⟩
  · simp [Left.after, Left.empty]
  · rw [List.concat_eq_append, after_append_singleton]
    constructor
    · intro h
      obtain ⟨hpictograph, hjoiner⟩ := (Bool.and_eq_true _ _).mp h
      exact ⟨front, c, rfl, eq_of_beq hjoiner, (after_pictograph front).mp hpictograph⟩
    · rintro ⟨front', c', heq, hjoiner, hpictograph⟩
      obtain ⟨rfl, rfl⟩ := List.append_singleton_inj.mp heq
      simp [Left.push, hjoiner, (after_pictograph front).mpr hpictograph]

theorem after_halfFlag (before : List Char) :
    (Left.after before).halfFlag = true ↔ Properties.unicode.EndsInHalfFlag before := by
  have hclass (c : Char) : kind c = .regional ↔ (kind c).breakClass = .regional :=
    Kind.eq_iff (l := .regional) (by decide)
  induction before using List.reverseRecOn with
  | nil => simp [Left.after, Left.empty, Properties.EndsInHalfFlag]
  | append_singleton front c ih =>
    rw [after_append_singleton, Properties.EndsInHalfFlag, List.rtakeWhile_concat]
    by_cases hc : kind c = .regional
    · rw [if_pos (by simpa [Properties.unicode, ← hclass] using hc), List.length_append,
        List.length_singleton]
      have hparity (n : Nat) : (n + 1) % 2 = 1 ↔ ¬ n % 2 = 1 := by omega
      have hpush : ((Left.after front).push (kind c)).halfFlag = true ↔
          ¬ (Left.after front).halfFlag = true := by simp [Left.push, hc]
      rw [hparity, hpush]
      exact not_congr ih
    · rw [if_neg (by simpa [Properties.unicode, ← hclass] using hc)]
      simp [Left.push, hc]

theorem Conjunct.push_ne_absent_iff (conjunct : Conjunct) (k : Kind) :
    conjunct.push k ≠ .absent ↔ k.conjunctClass = .consonant ∨
      conjunct ≠ .absent ∧ (k.conjunctClass = .extend ∨ k.conjunctClass = .linker) := by
  cases conjunct with
  | _ => cases k with
    | _ => decide

theorem Conjunct.push_eq_linked_iff (conjunct : Conjunct) (k : Kind) :
    conjunct.push k = .linked ↔ (k.conjunctClass = .linker ∧ conjunct ≠ .absent) ∨
      conjunct = .linked ∧ (k.conjunctClass = .extend ∨ k.conjunctClass = .linker) := by
  cases conjunct with
  | _ => cases k with
    | _ => decide

theorem after_conjunct_ne (before : List Char) :
    (Left.after before).conjunct ≠ .absent ↔ EndsInConsonant before :=
  foldl_iff_since (fun left : Left => left.conjunct ≠ .absent) (by decide)
    (fun _ _ => Conjunct.push_ne_absent_iff _ _) before

theorem after_conjunct (before : List Char) :
    (Left.after before).conjunct = .linked ↔ Properties.unicode.EndsInConjunct before := by
  rw [endsInConjunct_iff_since]
  refine foldl_iff_since (fun left : Left => left.conjunct = .linked) (by decide) ?_ before
  intro front c
  rw [← after_conjunct_ne]
  exact Conjunct.push_eq_linked_iff _ _

/-- The table of syllables is that of the rules. -/
theorem joinsSyllable_iff (last k : Kind) : joinsSyllable last k = true ↔
    (last.breakClass = .leading ∧ (k.breakClass = .leading ∨ k.breakClass = .vowel ∨
      k.breakClass = .openSyllable ∨ k.breakClass = .closedSyllable)) ∨
    ((last.breakClass = .openSyllable ∨ last.breakClass = .vowel) ∧
      (k.breakClass = .vowel ∨ k.breakClass = .trailing)) ∨
    ((last.breakClass = .closedSyllable ∨ last.breakClass = .trailing) ∧
      k.breakClass = .trailing) := by
  cases last with
  | _ => cases k with
    | _ => decide

/-! ## 4. The summary decides by the rules -/

theorem endsIn_append_singleton {property : Char → Prop} {front : List Char} {a : Char} :
    EndsIn property (front ++ [a]) ↔ property a := by
  constructor
  · rintro ⟨front', a', heq, ha⟩
    obtain ⟨-, rfl⟩ := List.append_singleton_inj.mp heq
    exact ha
  · exact fun ha => ⟨front, a, rfl, ha⟩

/-- Rules that keep together leave a boundary only where none of them applies. -/
theorem isBoundary_iff_of_keeping {rules : List Rule} (h : ∀ r ∈ rules, r.cuts = false) :
    IsBoundary rules before c ↔ ∀ r ∈ rules, ¬ r.Applies before c := by
  induction rules with
  | nil => simp [IsBoundary]
  | cons r rules ih =>
    obtain ⟨hr, hrules⟩ := List.forall_mem_cons.mp h
    rw [IsBoundary, ih hrules, List.forall_mem_cons, hr]
    simp

/-- **Two characters stay together** if they are a line end, or neither is a control character and
a rule applies that keeps them so. -/
theorem Properties.not_boundary_iff {p : Properties} {front : List Char} {a : Char} :
    ¬ p.Boundary (front ++ [a]) c ↔
      (p.breakClass a = .carriageReturn ∧ p.breakClass c = .lineFeed) ∨
        ¬ p.IsHard a ∧ ¬ p.IsHard c ∧ ∃ r ∈ p.keepingRules, r.Applies (front ++ [a]) c := by
  have hkeeping : IsBoundary p.keepingRules (front ++ [a]) c ↔
      ¬ ∃ r ∈ p.keepingRules, r.Applies (front ++ [a]) c := by
    rw [isBoundary_iff_of_keeping (by simp [keepingRules])]
    simp
  simp only [Boundary, rules, cuttingRules, List.cons_append, List.nil_append, IsBoundary,
    Rule.Applies, endsIn_append_singleton]
  rw [hkeeping]
  by_cases hline : p.breakClass a = .carriageReturn ∧ p.breakClass c = .lineFeed
  · simp [hline]
  · by_cases hhard : p.IsHard a ∨ p.IsHard c
    · rcases hhard with hhard | hhard
      · simp [hline, hhard]
      · simp [hline, hhard]
    · obtain ⟨ha, hc⟩ := not_or.mp hhard
      simp [hline, ha, hc, Rule.Applies]

theorem isHard_iff (c : Char) : (kind c).isHard = true ↔ Properties.unicode.IsHard c := by
  simp only [Properties.IsHard, Properties.unicode]
  cases kind c with
  | _ => decide

/-- What the summary keeps together. -/
theorem Left.keeps_iff {left : Left} {last k : Kind} (hlast : left.last = some last) :
    left.keeps k = true ↔ (last = .carriageReturn ∧ k = .lineFeed) ∨
      ¬ last.isHard = true ∧ ¬ k.isHard = true ∧
        (joinsSyllable last k = true ∨ k.extends = true ∨ k = .joiner ∨ k = .spacing ∨
          last = .prepended ∨ (left.conjunct = .linked ∧ k = .consonant) ∨
          (left.pictographJoined = true ∧ k = .pictograph) ∨
          (left.halfFlag = true ∧ k = .regional)) := by
  simp only [Left.keeps, hlast]
  split
  · rename_i hline
    obtain ⟨hreturn, hfeed⟩ := (Bool.and_eq_true _ _).mp hline
    exact iff_of_true rfl (.inl ⟨eq_of_beq hreturn, eq_of_beq hfeed⟩)
  · rename_i hline
    have hno : ¬ (last = .carriageReturn ∧ k = .lineFeed) := by simpa using hline
    split
    · rename_i hhard
      refine iff_of_false (by simp) ?_
      rintro (h | ⟨h₁, h₂, -⟩)
      · exact hno h
      · simp [h₁, h₂] at hhard
    · rename_i hsoft
      obtain ⟨h₁, h₂⟩ : last.isHard = false ∧ k.isHard = false := by simpa using hsoft
      simp [hno, h₁, h₂, or_assoc, and_comm]

/-- The rules that keep together, for the kinds of characters. -/
theorem exists_keeping_iff {front : List Char} {a : Char} :
    (∃ r ∈ Properties.unicode.keepingRules, r.Applies (front ++ [a]) c) ↔
      joinsSyllable (kind a) (kind c) = true ∨ (kind c).extends = true ∨ kind c = .joiner ∨
        kind c = .spacing ∨ kind a = .prepended ∨
        (Properties.unicode.EndsInConjunct (front ++ [a]) ∧ kind c = .consonant) ∨
        (Properties.unicode.EndsInJoinedPictograph (front ++ [a]) ∧ kind c = .pictograph) ∨
        (Properties.unicode.EndsInHalfFlag (front ++ [a]) ∧ kind c = .regional) := by
  have hconsonant : kind c = .consonant ↔ (kind c).conjunctClass = .consonant := by
    cases kind c with
    | _ => decide
  rw [joinsSyllable_iff, Kind.extends_iff, hconsonant, Kind.eq_iff (l := .joiner) (by decide),
    Kind.eq_iff (l := .spacing) (by decide), Kind.eq_iff (l := .prepended) (by decide),
    Kind.eq_iff (l := .regional) (by decide)]
  simp only [Properties.keepingRules, List.mem_cons, List.not_mem_nil, or_false, exists_eq_or_imp,
    exists_eq_left, Rule.Applies, endsIn_append_singleton, true_and, and_true, or_assoc]
  rfl

/-- **The summary decides by the rules.** -/
theorem keeps_after_iff (before : List Char) (c : Char) :
    (Left.after before).keeps (kind c) = true ↔ ¬ Properties.unicode.Boundary before c := by
  rcases List.eq_nil_or_concat before with rfl | ⟨front, a, rfl⟩
  · refine iff_of_false (by simp [Left.after, Left.empty, Left.keeps]) (not_not.mpr ?_)
    exact .inl ⟨⟨rfl, trivial⟩, rfl⟩
  · have hlast : (Left.after (front ++ [a])).last = some (kind a) := by
      rw [after_append_singleton]
      rfl
    rw [List.concat_eq_append, Properties.not_boundary_iff, exists_keeping_iff,
      Left.keeps_iff hlast, isHard_iff, isHard_iff, after_conjunct, after_pictographJoined,
      after_halfFlag, Kind.eq_iff (l := .carriageReturn) (by decide),
      Kind.eq_iff (l := .lineFeed) (by decide)]
    rfl

/-- **The pass finds clusters.** -/
theorem pieces_areClusters (before cs : List Char) :
    Stay .unicode before (pieces (Left.after before) cs).1 ∧
      AreClusters .unicode (before ++ (pieces (Left.after before) cs).1)
        (pieces (Left.after before) cs).2 := by
  induction cs generalizing before with
  | nil => exact ⟨stay_nil _ _, .nil⟩
  | cons c rest ih =>
    obtain ⟨hstay, hclusters⟩ := ih (before ++ [c])
    rw [after_append_singleton, List.append_assoc, List.singleton_append] at hclusters
    rw [after_append_singleton] at hstay
    unfold pieces
    split
    · rename_i hkeeps
      exact ⟨hstay.cons ((keeps_after_iff before c).mp hkeeps), hclusters⟩
    · rename_i hcuts
      rw [keeps_after_iff, not_not] at hcuts
      rw [List.append_nil]
      exact ⟨stay_nil _ _, .cons hcuts hstay hclusters⟩

theorem clusters_areClusters (cs : List Char) : AreClusters .unicode [] (clusters cs) := by
  have h := (pieces_areClusters [] cs).2
  rwa [show Left.after [] = .empty from rfl, pieces_empty_fst] at h

end Cluster

/-- **The segmentation at hand follows the rules.** -/
theorem Segmentation.unicode_follows : Segmentation.unicode.Follows .unicode :=
  follows_iff.mpr fun text =>
    ⟨clusters text.toList, rfl, clusters_flatten _, clusters_areClusters _⟩

end ModalStack.Text

namespace ModalStack

open Text

/-! ## 5. Backspaces -/

theorem Input.edits_of_backspace {press : KeyPress} (h : press.code = .backspace)
    (segmentation : Segmentation) : (Input.key press).Edits segmentation segmentation.dropLast := by
  intro s pattern hpattern
  have hstays : State.abandonsSearch press = false := by simp [State.abandonsSearch, h]
  simp [State.searchInput, State.searchPress, hstays, h, State.backspacePattern, hpattern]

theorem Input.edits_of_backspaces {inputs : List (Input × Context)}
    (h : ∀ i ∈ inputs, ∃ press : KeyPress, i.1 = .key press ∧ press.code = .backspace)
    (segmentation : Segmentation) :
    List.Forall₂ (fun i edit => i.1.Edits segmentation edit) inputs
      (List.replicate inputs.length segmentation.dropLast) := by
  induction inputs with
  | nil => exact .nil
  | cons i inputs ih =>
    obtain ⟨⟨press, hi, hpress⟩, hrest⟩ := List.forall_mem_cons.mp h
    exact .cons (hi ▸ edits_of_backspace hpress segmentation) (ih hrest)

namespace Engine

variable {η : Type} {e : Engine η} {pattern : String}

/-- **Backspaces peel clusters.**  A search is being typed, and whatever cuts its pattern into
clusters follows the rules.  However many backspace keys come, in whatever contexts and with
whatever modifiers, just so many clusters are gone from the end of the pattern, or all of them if
there were not so many.  It is still being typed, nothing else of the state is touched, and nothing
is sent.  The clusters of the pattern that is left are the leading clusters of the one that was
typed, and that could be cut wherever one of them begins. -/
theorem backspaces_peel {p : Cluster.Properties} (hfollows : e.settings.segmentation.Follows p)
    (hmode : e.state.mode = .search) (hpattern : e.state.searchPattern = some pattern)
    {inputs : List (Input × Context)}
    (hinputs : ∀ i ∈ inputs, ∃ press : KeyPress, i.1 = .key press ∧ press.code = .backspace) :
    let clusters := e.settings.segmentation.clustersOf pattern
    let leading := clusters.take (clusters.length - inputs.length)
    let shortened := String.ofList (textOf leading)
    (e.run (delivering inputs)).state = { e.state with searchPattern := some shortened } ∧
      (e.run (delivering inputs)).state.mode = .search ∧
      e.sending (delivering inputs) = [] ∧
      e.settings.segmentation.clustersOf shortened = leading ∧
      (clusters.length ≤ inputs.length → shortened = "") ∧
      ∀ cluster ∈ clusters, (⟨cluster.1⟩ : String.Pos.Raw).IsValid pattern := by
  intro clusters leading shortened
  obtain ⟨hstate, hsending⟩ :=
    run_edits (Input.edits_of_backspaces hinputs _) rfl hmode hpattern
  rw [hfollows.foldl_dropLast] at hstate
  refine ⟨hstate, by rw [hstate]; exact hmode, hsending, hfollows.clustersOf_take pattern _, ?_,
    fun _ hmem => hfollows.isValid hmem⟩
  intro hle
  simp [shortened, leading, Nat.sub_eq_zero_of_le hle, textOf]

/-- A letter with its accent, two flags, a syllable of three jamo and a woman in a rocket: three
backspaces take the rocket with the woman, the syllable, and one flag as a whole. -/
theorem backspaces_peel_flag :
    let accented : List Char := ['e', '\u0301']
    let flags : List Char := ['🇩', '🇪', '🇫', '🇷']
    let pattern :=
      accented ++ flags ++ ['\u1112', '\u1161', '\u11AB'] ++ ['👩', '\u200D', '🚀']
    let clusters : List (Nat × String) :=
      [(0, "e\u0301"), (3, "🇩🇪"), (11, "🇫🇷"), (19, "\u1112\u1161\u11AB"), (28, "👩\u200D🚀")]
    let e : Engine Unit := (Setup.start {}).run (typing ('/' :: pattern))
    let inputs : List (Input × Context) :=
      [(.key { code := .backspace }, .stack),
        (.key { code := .backspace, mods := { ctrl := true } }, .dialog),
        (.key { code := .backspace }, .stack)]
    let shortened := String.ofList (accented ++ ['🇩', '🇪'])
    (e.settings.segmentation.Follows .unicode ∧ e.state.mode = .search ∧
        e.state.searchPattern = some (String.ofList pattern) ∧
        e.settings.segmentation.clustersOf (String.ofList pattern) = clusters ∧
        ∀ i ∈ inputs, ∃ press : KeyPress, i.1 = .key press ∧ press.code = .backspace) ∧
      (e.run (delivering inputs)).state = { e.state with searchPattern := some shortened } ∧
      (e.run (delivering inputs)).state.mode = .search ∧
      e.sending (delivering inputs) = [] ∧
      e.settings.segmentation.clustersOf shortened = clusters.take 2 := by
  intro accented flags pattern clusters e inputs shortened
  have hsegmentation : e.settings.segmentation = .unicode := by
    rw [show e.settings = ({} : Settings) from run_settings _ _]
  have hfollows : e.settings.segmentation.Follows .unicode := by
    rw [hsegmentation]
    exact Segmentation.unicode_follows
  have hmode : e.state.mode = .search := by decide +kernel
  have hpattern : e.state.searchPattern = some (String.ofList pattern) := by decide +kernel
  have hclusters : e.settings.segmentation.clustersOf (String.ofList pattern) = clusters := by
    rw [hsegmentation]
    decide +kernel
  have hinputs : ∀ i ∈ inputs, ∃ press : KeyPress, i.1 = .key press ∧ press.code = .backspace := by
    simp [inputs]
  obtain ⟨hstate, hstays, hsending, hleading, -⟩ :=
    e.backspaces_peel hfollows hmode hpattern hinputs
  rw [hclusters] at hstate hleading
  have hshortened : String.ofList (textOf (clusters.take 2)) = shortened := by decide +kernel
  exact ⟨⟨hfollows, hmode, hpattern, hclusters, hinputs⟩, hshortened ▸ hstate, hstays, hsending,
    hshortened ▸ hleading⟩

end Engine

end ModalStack
