import ConcreteSyntax.Proofs.Diagnoses
import ConcreteSyntax.Proofs.Unvalidated

/-!
# Recognition at the end of the input

At the end of the input no token is left to be read, hence none to be committed: whatever
is not recognized there merely fails and keeps nothing else from being tried. So what can
succeed without a token does succeed there, as long as no validator refuses it, and what is
nullable is just what is recognized over the empty input.
-/

namespace ConcreteSyntax

variable {src : Source} {path : Path} {p q : Nat}

/-- Where no token is left none is committed. -/
theorem Diagnosis.WellFormed.isIncomplete_eq_false {d : Diagnosis} (h : d.WellFormed src path p)
    (hend : src.size ≤ p) : d.isIncomplete = false := by
  by_contra hd
  have hlength := h.length_pos (Bool.not_eq_false _ ▸ hd)
  have hposition := h.entry_le_position
  have hstop := h.stop_le_size
  simp only [stop] at hstop
  omega

theorem Reply.Orderly.ends {ε α : Type} {covers : α → Nat → Nat → Prop} {r : Reply ε α} {v : α}
    (h : r.Orderly covers src src.size) (hr : r = .success v q) : q = src.size := by
  obtain ⟨hle, hq, -⟩ := h.advances v q hr
  exact Nat.le_antisymm hq hle

/-- The recognizer succeeds at the end of the input, whatever the path. -/
def Recognizer.SucceedsAtEnd {ε α : Type} (src : Source) (r : Recognizer ε α) : Prop :=
  ∀ path, ∃ v, r path src.size = .success v src.size

/-! ## Terminals -/

/-- What can succeed without a token does where none is left. -/
theorem Terminal.recognize_succeedsAtEnd (src : Source) {t : Terminal}
    (hnullable : t.isNullable = true) : Recognizer.SucceedsAtEnd src (t.recognize src) := by
  intro path
  cases t with
  | literal l => cases hnullable
  | charClass k => cases hnullable
  | delimited d => cases hnullable
  | endOfInput => exact ⟨_, by rw [recognize, recognizeEnd, if_pos (Nat.le_refl _)]⟩
  | pattern r =>
      have hempty : src.window ⟨src.size, 0⟩ = [] := src.slice_self src.size
      have hlength : r.mode.length? (fun n => r.accepts (src.window ⟨src.size, n⟩)) 0 = some 0 := by
        simp only [isNullable, Pattern.isNullable, MatchMode.isNullable] at hnullable
        cases hmode : r.mode with
        | within min max =>
            rw [hmode, Bool.and_eq_true, beq_iff_eq] at hnullable
            simp [MatchMode.length?, MatchMode.longestFrom, hempty, hnullable]
        | growing tolerance allowEmpty =>
            rw [hmode] at hnullable
            simp [MatchMode.length?, MatchMode.grow, hnullable]
      refine ⟨.atom path.symbol ⟨src.size, 0⟩, ?_⟩
      simp only [recognize, Pattern.recognize, Pattern.recognizeWith,
        distance_of_le (Nat.le_refl _), Nat.sub_self, Reply.check_ok, hlength,
        Source.advance?_eq_some (Nat.le_of_eq (Nat.add_zero src.size)), Option.getD_some,
        Nat.add_zero]

/-! ## Groups and repetitions -/

/-- Alternatives that all fail are called where the first was. -/
theorem AllFail.failure {es : List ForestRecognizer} (h : AllFail path es p q)
    (hes : ∀ e ∈ es, ForestRecognizer.Orderly src e) (hp : p ≤ src.size) :
    ∀ e ∈ es, ∃ d, e path p = .failure d p := by
  induction h with
  | nil p =>
      intro e he
      exact absurd he List.not_mem_nil
  | @cons e rest p m r d first _ _ ih =>
      obtain ⟨he, hrest⟩ := List.forall_mem_cons.mp hes
      obtain rfl := (he path p hp).returns d m first
      exact List.forall_mem_cons.mpr ⟨⟨d, first⟩, ih hrest hp⟩

section

variable {es : List ForestRecognizer}

theorem sequence_succeedsAtEnd (horderly : ∀ e ∈ es, ForestRecognizer.Orderly src e)
    (hes : ∀ e ∈ es, Recognizer.SucceedsAtEnd src e) :
    Recognizer.SucceedsAtEnd src (sequence src es) := by
  intro path
  have horder := sequence_orderly horderly path _ (Nat.le_refl src.size)
  rcases sequenceFrom_cases path 0 es src.size with
    ⟨ns, q, -, hr⟩ | ⟨pre, e, post, ns, m, rfl, hrun, hm, -⟩
  · have hsequence : sequence src es path src.size = .success (.ofNodes ns) q := by
      rw [sequence, Reply.restoring_eq_success_iff, hr]
    exact ⟨.ofNodes ns, horder.ends hsequence ▸ hsequence⟩
  · -- the element that does not succeed is called at the end as well
    obtain ⟨hle, hsize, -⟩ := hrun.bounds (fun e he => horderly e (List.mem_append_left _ he))
      (Nat.le_refl _)
    obtain rfl : m = src.size := Nat.le_antisymm hsize hle
    obtain ⟨f, hf⟩ := hes e (by simp) path
    exact absurd hf (hm f _)

/-- Alternatives that fail before it do not keep one from being tried. -/
theorem choice_succeedsAtEnd (horderly : ∀ e ∈ es, ForestRecognizer.Orderly src e)
    (hdiagnoses : ∀ e ∈ es, ForestRecognizer.Diagnoses src e)
    (hfinishes : ∀ e ∈ es, ∀ path, e path src.size ≠ .unfinished)
    (hone : ∃ e ∈ es, Recognizer.SucceedsAtEnd src e) :
    Recognizer.SucceedsAtEnd src (choice es) := by
  intro path
  rcases choiceAfter_cases path none es src.size (by simp) with
    ⟨pre, e, post, m, rfl, hpre, hdecides, hr⟩ | ⟨d, q, hall, -, -, -⟩
  · obtain rfl : m = src.size :=
      hpre.stays (fun e he => horderly e (List.mem_append_left _ he)) (Nat.le_refl _)
    have he : e ∈ pre ++ e :: post := by simp
    have horder := horderly e he path _ (Nat.le_refl _)
    rw [choice, hr]
    cases hrun : e path src.size with
    | success f q => exact ⟨f, by rw [horder.ends hrun]⟩
    | failure d q =>
        have hwell := hdiagnoses e he path _ d q (Nat.le_refl _) hrun
        have huncommitted := hwell.isIncomplete_eq_false (Nat.le_refl _)
        rw [hdecides d q hrun] at huncommitted
        cases huncommitted
    | fault f => exact absurd hrun (horder.answers f)
    | unfinished => exact absurd hrun (hfinishes e he path)
  · obtain ⟨e, he, hsucceeds⟩ := hone
    obtain ⟨f, hf⟩ := hsucceeds path
    obtain ⟨d, hd⟩ := hall.failure horderly (Nat.le_refl _) e he
    rw [hf] at hd
    cases hd

/-- An occurrence at the end of the input is the first and the last of its run. -/
theorem Cardinality.repeating_succeedsAtEnd {c : Cardinality} {bound : Nat} {r : ForestRecognizer}
    (horderly : ForestRecognizer.Orderly src r) (hdiagnoses : ForestRecognizer.Diagnoses src r)
    (hfinishes : ∀ path, c.repeating src bound (fun _ => r) path src.size ≠ .unfinished)
    (henough : c.min = 0 ∨ Recognizer.SucceedsAtEnd src r) :
    Recognizer.SucceedsAtEnd src (c.repeating src bound fun _ => r) := by
  intro path
  have horder := c.repeating_orderly bound horderly path _ (Nat.le_refl src.size)
  rcases c.repeating_cases src bound (fun _ => r) path src.size with
    ⟨run, q, -, -, hr⟩ | ⟨run, q, d, hrun, hend, hstop, -⟩ | ⟨f, -, hr⟩ | ⟨-, hr⟩
  · exact ⟨_, horder.ends hr ▸ hr⟩
  · obtain ⟨hle, hq, hstopped⟩ := hrun.stopped_at horderly (Nat.le_refl _) hend
    obtain rfl : q = src.size := Nat.le_antisymm hq hle
    have hwell := hdiagnoses path _ d _ (Nat.le_refl _) hstopped
    have huncommitted := hwell.isIncomplete_eq_false (Nat.le_refl _)
    rcases henough with hnone | hsucceeds
    · simp [huncommitted, hnone] at hstop
    · obtain ⟨f, hf⟩ := hsucceeds path
      rw [hf] at hstopped
      cases hstopped
  · exact absurd hr (horder.answers f)
  · exact absurd hr (hfinishes path)

end

section

variable {scope : Scope} {minimum : Option Nat} {elements untaken : List Element}

/-- At the end of the input no element can be taken, so the set is recognized if those
that may be left are enough. -/
theorem Group.set_succeedsAtEnd
    (helements : ∀ e : Element, ForestRecognizer.Orderly scope.source (e.recognizer scope))
    (hdiagnoses : ∀ e : Element, ForestRecognizer.Diagnoses scope.source (e.recognizer scope))
    (hfinishes : ∀ path,
      Group.recognizer scope ⟨.set minimum, elements⟩ path scope.source.size ≠ .unfinished)
    (among : untaken.Sublist elements) (each : ∀ e ∈ untaken, e.isOptional = true)
    (enough : Group.requirement minimum elements.length ≤ untaken.length) :
    Recognizer.SucceedsAtEnd scope.source (Group.recognizer scope ⟨.set minimum, elements⟩) := by
  intro path
  have hfinished := hfinishes path
  have hrequired := Nat.le_trans enough among.length_le
  have horder := anyOrder_orderly (Group.requirement minimum elements.length)
    (members_orderly fun e (_ : e ∈ elements) => helements e) path _ (Nat.le_refl _)
  rw [Group.recognizer_set] at hfinished ⊢
  rcases anyOrder_exhausted path (fun e _ => helements e) (Nat.le_refl _) hrequired with
    hexhausted | ⟨taken, e, rest, ns, q, d, horder, hq, hrun, hd, -⟩ | hr
  · have hnone : SetOrder scope path elements scope.source.size [] elements [] scope.source.size :=
      ⟨.refl _, .nil _⟩
    have henough : EnoughTaken (Group.requirement minimum elements.length) [] elements := by
      have hoptional := le_length_filter_iff.mpr ⟨untaken, among, each, enough⟩
      simpa [EnoughTaken] using hoptional
    obtain ⟨f, q, hr⟩ := hexhausted.success_iff.mpr ⟨_, _, _, _, hnone, henough⟩
    exact ⟨f, horder.ends hr ▸ hr⟩
  · obtain rfl : q = scope.source.size := Nat.le_antisymm hq horder.run.le
    have hwell := hdiagnoses e path _ d _ (Nat.le_refl _) hrun
    rw [hwell.isIncomplete_eq_false (Nat.le_refl _)] at hd
    cases hd
  · exact absurd hr hfinished

end

/-! ## Rules -/

section

variable {scope : Scope} {known : String → Prop}
variable (horderly : ∀ symbol, NodeRecognizer.Orderly scope.source (scope.production symbol))
variable (hdiagnoses : ∀ symbol, NodeRecognizer.Diagnoses scope.source (scope.production symbol))
variable (hkinds : ∀ (k : Kind) path, k.recognizer scope path scope.source.size ≠ .unfinished)
variable (helements : ∀ (e : Element) path, e.recognizer scope path scope.source.size ≠ .unfinished)
variable (hknown : ∀ symbol, known symbol →
  Recognizer.SucceedsAtEnd scope.source (scope.production symbol))

include horderly hdiagnoses hkinds helements hknown

/-- **Elements.** What can succeed without a token does so at the end of the input, if
the productions do that are known to. -/
theorem Kind.succeedsAtEnd :
    (∀ k : Kind, k.Nullable known → Recognizer.SucceedsAtEnd scope.source (k.recognizer scope)) ∧
      ∀ e : Element, e.Nullable known →
        Recognizer.SucceedsAtEnd scope.source (e.recognizer scope) := by
  obtain ⟨horderKinds, horderElements⟩ := Kind.recognizer_orderly horderly
  obtain ⟨hsayKinds, hsayElements⟩ := Kind.recognizer_diagnoses horderly hdiagnoses
  apply Kind.induction
  · rintro symbol ⟨hsymbol⟩ path
    obtain ⟨n, hn⟩ := hknown symbol hsymbol (path.child symbol)
    exact ⟨.single n, by simp only [Kind.recognizer, hn]; rfl⟩
  · intro rule hk path
    cases hk with
    | terminal empty =>
        obtain ⟨n, hn⟩ :=
          Terminal.recognize_succeedsAtEnd scope.source empty (path.child rule.inlineSymbol)
        exact ⟨.single n, by simp only [Kind.recognizer, hn]; rfl⟩
  · intro aggregation elements ih hk
    have horder : ∀ r ∈ elements.map (Element.recognizer scope),
        ForestRecognizer.Orderly scope.source r :=
      List.forall_mem_map.mpr fun e _ => horderElements e
    cases hk with
    | sequence all =>
        rw [Kind.recognizer, Aggregation.recognizer, Element.map_recognizer_members]
        apply sequence_succeedsAtEnd horder
        exact List.forall_mem_map.mpr fun e he => ih e he (all e he)
    | choice member one =>
        rw [Kind.recognizer, Aggregation.recognizer, Element.map_recognizer_members]
        apply choice_succeedsAtEnd horder
        · exact List.forall_mem_map.mpr fun e _ => hsayElements e
        · exact List.forall_mem_map.mpr fun e _ => helements e
        · exact ⟨_, List.mem_map_of_mem member, ih _ member one⟩
    | @set minimum _ untaken among each enough =>
        exact Group.set_succeedsAtEnd horderElements hsayElements
          (hkinds (.group (.set minimum) elements)) among each enough
  · intro kind cardinality ih hk
    have hfinished := helements (.mk kind cardinality)
    rw [Element.recognizer_mk] at hfinished ⊢
    apply Cardinality.repeating_succeedsAtEnd (horderKinds kind) (hsayKinds kind) hfinished
    cases hk with
    | optional none => exact Or.inl none
    | occurs once => exact Or.inr (ih once)

theorem Rule.succeedsAtEnd {r : Rule} (h : r.Nullable known) :
    Recognizer.SucceedsAtEnd scope.source (r.recognizer scope) := by
  cases r with
  | terminal rule => exact rule.recognize_succeedsAtEnd scope.source h
  | composite r =>
      intro path
      have hgroup := (Kind.succeedsAtEnd horderly hdiagnoses hkinds helements hknown).1 _ h path
      rw [Group.recognizer_toKind] at hgroup
      obtain ⟨f, hf⟩ := hgroup
      rcases r.recognizer_cases path (r.group.recognizer_orderly horderly) (Nat.le_refl _) with
        ⟨f', q, hrun, hr⟩ | ⟨d, hrun, -⟩ | ⟨hrun, -⟩ <;> rw [hf] at hrun
      · rw [Reply.success.injEq] at hrun
        exact ⟨_, by rw [Rule.recognizer, hr, hrun.2]⟩
      · cases hrun
      · cases hrun

end

/-! ## Languages -/

namespace Language

variable {l : Language} {root : String} {productions : List Production}

/-- **The end of the input.** A nullable production succeeds there if there are no
validators. -/
theorem nullable_succeedsAtEnd (hbuild : Grammar.build root productions = .ok l.grammar)
    (hunvalidated : l.Unvalidated) (src : Source) :
    ∀ symbol ∈ l.grammar.nullable,
      Recognizer.SucceedsAtEnd src ((l.fullScope src).production symbol) := by
  have hfinishes : l.Finishes src (l.stage src) src.size :=
    l.finishes_of_stage_le hbuild (Nat.le_refl _) (Nat.le_refl _)
  -- the productions that succeed are closed under what a rule needs
  have hclosed : l.grammar.ClosedUnder Rule.Nullable fun symbol =>
      Recognizer.SucceedsAtEnd src ((l.fullScope src).production symbol) := by
    intro symbol r hfound hr path
    have hvalidator := hunvalidated.productions r (List.mem_of_find?_eq_some hfound)
    have hrule := Rule.succeedsAtEnd (l.scope_orderly src (l.stage src))
      (l.scope_diagnoses src (l.stage src)) (by rw [l.scope_source]; exact hfinishes.kind)
      (by rw [l.scope_source]; exact hfinishes.element) (by rw [l.scope_source]; exact fun _ => id)
      hr
    rw [l.scope_source] at hrule
    rw [l.fullScope_production hbuild (Nat.le_refl _), Language.production, hfound,
      hunvalidated.registered]
    show ∃ v, r.recognizer none (l.fullScope src) path src.size = _
    rw [r.recognizer_of_unvalidated hvalidator]
    exact hrule path
  intro symbol hsymbol
  have hdistinct := (Grammar.valid_of_build hbuild).distinct
  exact (Grammar.mem_nullable_iff hdistinct).mp hsymbol _ hclosed

end Language

/-- **Nullability.** In a grammar without violations, the symbols found to be nullable are
those of productions that are recognized over the empty input when there are no
validators. Whatever validators there are, and whatever the input, no other production is
recognized without reading a token. -/
theorem nullable_exact {root : String} {productions : List Production} {l : Language}
    (hbuild : Grammar.build root productions = .ok l.grammar) :
    (∀ symbol, symbol ∈ l.grammar.nullable ↔
        ∃ node q, l.unvalidated.recognize symbol "" = .success node q) ∧
      ∀ (src : Source) (p : Nat) (node : Node), p ≤ src.size →
        (∀ symbol, l.recognizeAt src symbol p = .success node p → symbol ∈ l.grammar.nullable) ∧
          ∀ symbol path, l.recognizeBelow src symbol path p = .success node p →
            symbol ∈ l.grammar.nullable := by
  have hvalid := Grammar.valid_of_build hbuild
  have idle (l : Language) {src : Source} {p : Nat} {node : Node} (hp : p ≤ src.size)
      {symbol : String} {path : Path}
      (h : (l.fullScope src).production symbol path p = .success node p) :
      symbol ∈ l.grammar.nullable := by
    have hidle := l.scope_idleOnlyIf src (l.stage src) symbol path p node
    rw [l.scope_source, List.contains_iff_mem] at hidle
    exact hidle hp h
  constructor
  · intro symbol
    rw [← Grammar.nullable_unvalidated hvalid]
    constructor
    · intro hsymbol
      have hsucceeds := Language.nullable_succeedsAtEnd (l := l.unvalidated)
        hvalid.unvalidated.build l.unvalidated_unvalidated (Source.ofString "") symbol hsymbol
      obtain ⟨node, hnode⟩ := hsucceeds (.root symbol)
      exact ⟨node, _, hnode⟩
    · rintro ⟨node, q, hnode⟩
      have horderly := l.unvalidated.scope_orderly (Source.ofString "")
        (l.unvalidated.stage (Source.ofString "")) symbol
      rw [Language.scope_source] at horderly
      obtain rfl : q = 0 := (horderly (.root symbol) 0 (Nat.zero_le _)).ends hnode
      exact idle l.unvalidated (Nat.zero_le _) hnode
  · intro src p node hp
    exact ⟨fun symbol h => idle l hp h, fun symbol path h => idle l hp h⟩

/-- Spaces, of which there has to be one. Only the validator says so. -/
def someSpaces : Language := .ofGrammar ⟨"spaces",
  [⟨"spaces", .composite ⟨⟨.sequence, [.mk (.character ' ') .zeroOrMore]⟩, none⟩,
    some fun n _ => if n.segment.count = 0 then some "no space" else none⟩]⟩

theorem nullable_exact_spaces :
    Grammar.build "spaces" someSpaces.grammar.productions = .ok someSpaces.grammar ∧
      (∃ d, someSpaces.recognize "spaces" "" = .failure d 0) ∧
      "spaces" ∈ someSpaces.grammar.nullable ∧
      ∃ node q, someSpaces.unvalidated.recognize "spaces" "" = .success node q := by
  have hbuild : Grammar.build "spaces" someSpaces.grammar.productions =
    .ok someSpaces.grammar := rfl
  have hnullable : "spaces" ∈ someSpaces.grammar.nullable := by decide
  exact ⟨hbuild, ⟨_, rfl⟩, hnullable, ((nullable_exact hbuild).1 "spaces").mp hnullable⟩

end ConcreteSyntax
