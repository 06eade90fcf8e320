import ConcreteSyntax.Proofs.Commitment
import ConcreteSyntax.Proofs.Unvalidated

/-!
# Committing earlier

Two languages may differ in when tokens are committed: a lower threshold promotes
failures that a higher one passes over, and a validator refuses what was recognized. None
of this makes a recognition take another way. Up to where tokens are committed that the
other language does not commit, both make the same calls and are given the same replies;
and what is committed comes to the top.
-/

namespace ConcreteSyntax

/-- The reply is the other one, unless it fails after tokens were committed; `cause` is
what stopped a recognition that failed. -/
def Reply.EqUnlessCommitted {ε α : Type} (cause : ε → Diagnosis) (r r' : Reply ε α) : Prop :=
  r = r' ∨ ∃ e q, r = .failure e q ∧ (cause e).isIncomplete = true

theorem Reply.EqUnlessCommitted.toForest {r r' : Reply Diagnosis Node}
    (h : r.EqUnlessCommitted id r') :
    r.toForest.EqUnlessCommitted GroupDiagnosis.cause r'.toForest := by
  rcases h with rfl | ⟨d, q, rfl, hd⟩
  · exact Or.inl rfl
  · exact Or.inr ⟨.ofDiagnosis d, q, rfl, hd⟩

/-! ## Languages that commit earlier -/

/-- The same group, with a threshold that is met no later. No threshold is never met. -/
structure Composite.CommitsBefore (r r' : Composite) : Prop where
  group : r.group = r'.group
  threshold : ∀ t' ∈ r'.threshold, ∃ t ∈ r.threshold, t ≤ t'

/-- The same rule, but for a threshold that is met no later. -/
inductive Rule.CommitsBefore : Rule → Rule → Prop where
  | terminal (t : Terminal) : Rule.CommitsBefore (.terminal t) (.terminal t)
  | composite {r r' : Composite} (h : r.CommitsBefore r') :
      Rule.CommitsBefore (.composite r) (.composite r')

namespace Language

/-- The same productions, but for thresholds that are met no later and for validators. -/
def CommitsBefore (l l' : Language) : Prop :=
  ∀ symbol, Option.Rel (fun r r' => r.rule.CommitsBefore r'.rule)
    (l.grammar.find? symbol) (l'.grammar.find? symbol)

/-- No validator refuses a node for which the rule of its production read nothing. -/
def KeepsIdle (l : Language) (src : Source) : Prop :=
  ∀ (path : Path) (r : Production) (p : Nat) (n : Node),
    l.grammar.find? path.symbol = some r → p ≤ src.size →
    r.rule.recognizer (l.fullScope src) path p = .success n p →
      Production.Admits (r.validator <|> l.validators path.symbol) src n

end Language

/-! ## Repetitions -/

namespace Cardinality

variable {c : Cardinality} {src : Source}

/-- Occurrences that reply the same make the same run, unless one that committed tokens
stops it. -/
theorem runFrom_eq_or_stopped {occurrence occurrence' : Nat → Reply GroupDiagnosis Forest}
    (bound : Nat) : ∀ {done p : Nat},
      (∀ q, c.Calls occurrence done p q →
        (occurrence q).EqUnlessCommitted GroupDiagnosis.cause (occurrence' q)) →
      c.runFrom (fun _ => occurrence) bound done p =
          c.runFrom (fun _ => occurrence') bound done p ∨
        ∃ run q d, c.runFrom (fun _ => occurrence) bound done p = .success run q ∧
          run.ending = .stopped d ∧ d.cause.isIncomplete = true := by
  induction bound with
  | zero =>
      intro done p _
      rw [runFrom, runFrom]
      exact Or.inl rfl
  | succ bound ih =>
      intro done p h
      rw [runFrom, runFrom]
      by_cases hfull : c.isFull done = true
      · rw [if_pos hfull, if_pos hfull]
        exact Or.inl rfl
      · have room : c.isFull done = false := Bool.eq_false_iff.mpr hfull
        rw [if_neg hfull, if_neg hfull]
        rcases h p (.here room) with hsame | ⟨d, m, hrun, hd⟩
        · simp only [← hsame]
          cases hrun : occurrence p with
          | success f m =>
              by_cases hm : m = p
              · exact Or.inl (by simp only [if_pos hm])
              · simp only [if_neg hm]
                rcases ih fun q hq => h q (.later room hrun hm hq) with
                  hothers | ⟨run, q, d, hothers, hend, hd⟩
                · exact Or.inl (by rw [hothers])
                · exact Or.inr ⟨run.after f, q, d, by rw [hothers, Reply.map], hend, hd⟩
          | _ => exact Or.inl rfl
        · rw [hrun]
          exact Or.inr ⟨_, m, d, rfl, rfl, hd⟩

theorem repeating_eqUnlessCommitted (c : Cardinality) (bound : Nat) {r r' : ForestRecognizer}
    {path : Path} {p : Nat} (horderly : ForestRecognizer.Orderly src r) (hp : p ≤ src.size)
    (h : ∀ q, q ≤ src.size → (r path q).EqUnlessCommitted GroupDiagnosis.cause (r' path q)) :
    (c.repeating src bound (fun _ => r) path p).EqUnlessCommitted GroupDiagnosis.cause
      (c.repeating src bound (fun _ => r') path p) := by
  have hcalled : ∀ q, c.Calls (r path) 0 p q →
      (r path q).EqUnlessCommitted GroupDiagnosis.cause (r' path q) :=
    fun q hq => h q (hq.inside (fun p hp => horderly path p hp) hp)
  unfold repeating
  rcases runFrom_eq_or_stopped bound hcalled with hsame | ⟨run, q, d, hrun, hend, hd⟩
  · exact Or.inl (by simp only [hsame])
  · refine Or.inr ⟨d.withCount (run.occurrences + d.count), p, ?_, hd⟩
    simp only [hrun, judge, hend, hd, true_or, if_true, Reply.restoring, Source.seek_of_le hp,
      Reply.check_ok]

end Cardinality

/-! ## Rules -/

theorem Group.Calls.mem {scope : Scope} {path : Path} {g : Group} {e : Element} {p q : Nat}
    (h : g.Calls scope path p e q) : e ∈ g.elements := by
  cases h with
  | sequence _ => simp
  | choice _ => simp
  | set _ member _ => exact member

/-- A threshold that is met no later promotes no less. -/
theorem Composite.CommitsBefore.conclude {r r' : Composite} (h : r.CommitsBefore r') (path : Path)
    (start : Nat) (d : GroupDiagnosis) :
    r.conclude path start d = r'.conclude path start d ∨
      (r.conclude path start d).isIncomplete = true := by
  -- whatever is not promoted stays the cause of the group
  have hrest : r.conclude path start d = d.cause ∨
      (r.conclude path start d).isIncomplete = true := by
    unfold Composite.conclude
    cases r.threshold with
    | none => exact Or.inl rfl
    | some t =>
        simp only
        split
        · exact Or.inr rfl
        · exact Or.inl rfl
  cases hthreshold : r'.threshold with
  | none => simpa [Composite.conclude, hthreshold] using hrest
  | some t' =>
      obtain ⟨t, ht, hle⟩ := h.threshold t' hthreshold
      have ht : r.threshold = some t := ht
      by_cases hpromoted : d.cause.isFailed = true ∧ t' ≤ d.count ∧ 0 < d.cause.stop - start
      · have hearlier : d.cause.isFailed = true ∧ t ≤ d.count ∧ 0 < d.cause.stop - start :=
          ⟨hpromoted.1, Nat.le_trans hle hpromoted.2.1, hpromoted.2.2⟩
        exact Or.inl (by simp only [Composite.conclude, ht, hthreshold, if_pos hpromoted,
          if_pos hearlier])
      · have hkept : r'.conclude path start d = d.cause := by
          simp only [Composite.conclude, hthreshold, if_neg hpromoted]
        rw [hkept]
        exact hrest

/-- What a validator refuses that has read tokens had committed them. -/
theorem Production.validated_eq_or_incomplete (validator : Option Validator) {src : Source}
    (path : Path) (node : Node) {p q : Nat} (hpq : p ≤ q) (hp : p ≤ src.size)
    (hidle : q = p → Admits validator src node) :
    validated validator src path p node q = .success node q ∨
      ∃ d, validated validator src path p node q = .failure d p ∧ d.isIncomplete = true := by
  rcases validated_cases validator path node hpq hp with ⟨-, h⟩ | ⟨hrefused, d, h⟩
  · exact Or.inl h
  · have hmoved : q - p ≠ 0 := by
      have hne : q ≠ p := fun heq => hrefused (hidle heq)
      omega
    refine Or.inr ⟨d, h, ?_⟩
    unfold validated at h
    split at h
    · cases h
    · simp only [distance_of_le hpq, Source.seek_of_le hp, Reply.check_ok, if_neg hmoved,
        Reply.failure.injEq] at h
      exact h.1 ▸ rfl

section

variable {scope scope' : Scope} {path : Path} {p : Nat}
variable (hsource : scope'.source = scope.source) (hbound : scope'.bound = scope.bound)
variable (horderly : ∀ symbol, NodeRecognizer.Orderly scope.source (scope.production symbol))
variable (hproduction : ∀ (path : Path) p, p ≤ scope.source.size →
  (scope.production path.symbol path p).EqUnlessCommitted id
    (scope'.production path.symbol path p))

include hsource hbound horderly hproduction

/-- **Elements.** What kinds and elements say in two scopes is the same, unless tokens
were committed in the first, if that holds of the productions. -/
theorem Kind.recognizer_eqUnlessCommitted :
    (∀ (k : Kind) (path : Path) p, p ≤ scope.source.size →
        (k.recognizer scope path p).EqUnlessCommitted GroupDiagnosis.cause
          (k.recognizer scope' path p)) ∧
      ∀ (e : Element) (path : Path) p, p ≤ scope.source.size →
        (e.recognizer scope path p).EqUnlessCommitted GroupDiagnosis.cause
          (e.recognizer scope' path p) := by
  obtain ⟨hkinds, helements⟩ := Kind.recognizer_orderly horderly
  apply Kind.induction
  · intro symbol path p hp
    have h := hproduction (path.child symbol) p hp
    exact h.toForest
  · intro rule path p _
    simp only [Kind.recognizer, hsource]
    exact Or.inl rfl
  · intro aggregation elements ih path p hp
    have hkind (scope : Scope) : (Kind.group aggregation elements).recognizer scope =
        Group.recognizer scope ⟨aggregation, elements⟩ := Group.recognizer_toKind scope ⟨_, _⟩
    rw [hkind, hkind]
    -- either all that is called replies the same, or something called committed tokens
    by_cases hsame : ∀ e q, Group.Calls scope path ⟨aggregation, elements⟩ p e q →
        e.recognizer scope path q = e.recognizer scope' path q
    · exact Or.inl (Group.recognizer_congr helements hsource hp hsame)
    · push Not at hsame
      obtain ⟨e, q, hcalled, hne⟩ := hsame
      have hcommitted := ih e hcalled.mem path q (hcalled.inside helements hp)
      obtain ⟨d, m, hrun, hd⟩ := hcommitted.resolve_left hne
      obtain ⟨n, hn⟩ := hcalled.fails helements hp hrun hd
      exact Or.inr ⟨d.withCount n, p, hn, hd⟩
  · intro kind cardinality ih path p hp
    rw [Element.recognizer_mk, Element.recognizer_mk, hsource, hbound]
    exact cardinality.repeating_eqUnlessCommitted _ (hkinds kind) hp (ih path)

theorem Rule.CommitsBefore.recognizer {r r' : Rule} (h : r.CommitsBefore r')
    (hp : p ≤ scope.source.size) :
    (r.recognizer scope path p).EqUnlessCommitted id (r'.recognizer scope' path p) := by
  cases h with
  | terminal t =>
      rw [Rule.recognizer, Rule.recognizer, hsource]
      exact Or.inl rfl
  | @composite r r' h =>
      have hgroup : (r.group.recognizer scope path p).EqUnlessCommitted GroupDiagnosis.cause
          (r'.group.recognizer scope' path p) := by
        rw [← h.group, ← Group.recognizer_toKind, ← Group.recognizer_toKind]
        exact (Kind.recognizer_eqUnlessCommitted hsource hbound horderly hproduction).1 _ path p hp
      simp only [Rule.recognizer, Composite.recognizer]
      rcases hgroup with hsame | ⟨d, m, hrun, hd⟩
      · rw [← hsame]
        cases hrun : r.group.recognizer scope path p with
        | failure d m =>
            by_cases hm : m = p
            · simp only [if_pos hm]
              rcases h.conclude path p d with heq | hd
              · exact Or.inl (by rw [heq])
              · exact Or.inr ⟨_, m, rfl, hd⟩
            · simp only [if_neg hm]
              exact Or.inl rfl
        | _ => exact Or.inl rfl
      · obtain rfl := (r.group.recognizer_orderly horderly path p hp).returns d m hrun
        refine Or.inr ⟨d.cause, m, ?_, hd⟩
        simp only [hrun, if_true, r.conclude_of_isIncomplete path m hd]

theorem Production.recognizer_eqUnlessCommitted {r r' : Production} (fallback : Option Validator)
    (hrule : r.rule.CommitsBefore r'.rule) (hvalidator : r'.validator = none)
    (hidle : ∀ n, r.rule.recognizer scope path p = .success n p →
      Admits (r.validator <|> fallback) scope.source n)
    (hp : p ≤ scope.source.size) :
    (r.recognizer fallback scope path p).EqUnlessCommitted id
      (r'.recognizer none scope' path p) := by
  rw [recognizer_of_unvalidated hvalidator, Production.recognizer]
  rcases hrule.recognizer hsource hbound horderly hproduction hp with hsame | ⟨d, m, hrun, hd⟩
  · rw [← hsame]
    cases hrun : r.rule.recognizer scope path p with
    | success n q =>
        obtain ⟨hpq, -, -⟩ := (r.rule.recognizer_orderly horderly path p hp).advances n q hrun
        rcases validated_eq_or_incomplete (r.validator <|> fallback) path n hpq hp
          (by rintro rfl; exact hidle n hrun) with h | ⟨d, h, hd⟩
        · exact Or.inl h
        · exact Or.inr ⟨d, p, h, hd⟩
    | _ => exact Or.inl rfl
  · rw [hrun]
    exact Or.inr ⟨d, m, rfl, hd⟩

end

/-! ## Languages -/

namespace Language

variable {l l' : Language} {src : Source} {root : String} {productions : List Production}

/-- What a rule recognizes at some stage is all it ever will. -/
theorem rule_fullScope_of_success (hbuild : Grammar.build root productions = .ok l.grammar)
    {r : Rule} {n : Nat} {path : Path} {p q : Nat} {node : Node} (hp : p ≤ src.size)
    (h : r.recognizer (l.scope src n) path p = .success node q) :
    r.recognizer (l.fullScope src) path p = .success node q := by
  have hfinishes : l.Finishes src (l.stage src) p :=
    l.finishes_of_stage_le hbuild (Nat.le_refl _) hp
  rcases Nat.le_total n (l.stage src) with hn | hn
  · have hle := r.recognizer_mono (l.scope_mono src hn) path p
    exact (Reply.eq_of_le hle (by rw [h]; simp)).trans h
  · have hle := r.recognizer_mono (l.scope_mono src hn) path p
    exact (Reply.eq_of_le hle (hfinishes.rule r path)).symm.trans h

theorem production_fullScope_of_stage_le
    (hbuild : Grammar.build root productions = .ok l.grammar) {n : Nat} (hn : l.stage src ≤ n)
    (symbol : String) (path : Path) {p : Nat} (hp : p ≤ src.size) :
    (l.scope src n).production symbol path p = (l.fullScope src).production symbol path p := by
  have hfinishes : l.Finishes src (l.stage src) p :=
    l.finishes_of_stage_le hbuild (Nat.le_refl _) hp
  exact Reply.eq_of_le ((l.scope_mono src hn).2.2 symbol path p) (hfinishes.symbol symbol path)

/-- **Stages.** At every stage both languages say the same, unless tokens were committed
in the first. -/
theorem CommitsBefore.scope (hbuild : Grammar.build root productions = .ok l.grammar)
    (hbefore : l.CommitsBefore l') (hunvalidated : l'.Unvalidated) (hidle : l.KeepsIdle src)
    (n : Nat) : ∀ (path : Path) p, p ≤ (l.scope src n).source.size →
      ((l.scope src n).production path.symbol path p).EqUnlessCommitted id
        ((l'.scope src n).production path.symbol path p) := by
  induction n with
  | zero =>
      intro path p _
      exact Or.inl rfl
  | succ n ih =>
      intro path p hp
      rw [scope_source] at hp
      rw [scope_production_succ, scope_production_succ, production, production]
      have hrules := hbefore path.symbol
      cases hfind : l.grammar.find? path.symbol with
      | none =>
          cases hfind' : l'.grammar.find? path.symbol with
          | none => exact Or.inl rfl
          | some r' => simp [hfind, hfind'] at hrules
      | some r =>
          cases hfind' : l'.grammar.find? path.symbol with
          | none => simp [hfind, hfind'] at hrules
          | some r' =>
              rw [hfind, hfind', Option.rel_some_some] at hrules
              have hvalidator := hunvalidated.productions r' (List.mem_of_find?_eq_some hfind')
              have hadmits (node : Node)
                  (h : r.rule.recognizer (l.scope src n) path p = .success node p) :
                  Production.Admits (r.validator <|> l.validators path.symbol)
                    (l.scope src n).source node := by
                rw [scope_source]
                exact hidle path r p node hfind hp (rule_fullScope_of_success hbuild hp h)
              rw [hunvalidated.registered path.symbol]
              exact Production.recognizer_eqUnlessCommitted (by simp) (by simp)
                (l.scope_orderly src n) ih _ hrules hvalidator hadmits (by simpa using hp)

end Language

/-- **Commitment is conservative.** Let two languages have the same productions, in
grammars without violations, but for thresholds, which in the first are met no later, and
for validators, of which the second has none and the first none that refuses a node for
which nothing was read. Whatever is recognized, from wherever, the first replies what the
second does, or it fails after tokens were committed. -/
theorem commitment_conservative {root root' : String} {productions productions' : List Production}
    {l l' : Language} (hbuild : Grammar.build root productions = .ok l.grammar)
    (hbuild' : Grammar.build root' productions' = .ok l'.grammar) (hbefore : l.CommitsBefore l')
    (hunvalidated : l'.Unvalidated) {src : Source} (hidle : l.KeepsIdle src) {p : Nat}
    (hp : p ≤ src.size) :
    (∀ symbol, l.recognizeAt src symbol p = l'.recognizeAt src symbol p ∨
        ∃ d, l.recognizeAt src symbol p = .failure d p ∧ d.isIncomplete = true) ∧
      ∀ symbol path, l.recognizeBelow src symbol path p = l'.recognizeBelow src symbol path p ∨
        ∃ d, l.recognizeBelow src symbol path p = .failure d p ∧ d.isIncomplete = true := by
  have hreturns (symbol : String) (path : Path) :
      ((l.fullScope src).production symbol path p).Orderly Node.Within src p := by
    have horderly := l.scope_orderly src (l.stage src) symbol
    rw [Language.scope_source] at horderly
    exact horderly path p hp
  have production (path : Path) :
      (l.fullScope src).production path.symbol path p =
          (l'.fullScope src).production path.symbol path p ∨
        ∃ d, (l.fullScope src).production path.symbol path p = .failure d p ∧
          d.isIncomplete = true := by
    -- a stage at which both are finished
    have hstage := hbefore.scope hbuild hunvalidated hidle (max (l.stage src) (l'.stage src)) path p
      (by simpa using hp)
    rw [Language.production_fullScope_of_stage_le hbuild (Nat.le_max_left _ _) _ _ hp,
      Language.production_fullScope_of_stage_le hbuild' (Nat.le_max_right _ _) _ _ hp] at hstage
    rcases hstage with hsame | ⟨d, q, hrun, hd⟩
    · exact Or.inl hsame
    · obtain rfl := (hreturns _ path).returns d q hrun
      exact Or.inr ⟨d, hrun, hd⟩
  exact ⟨fun symbol => production (.root symbol), fun symbol path => production (path.child symbol)⟩

/-- Letters and pairs, of no more than two tokens in all. -/
def fewSteps : Language :=
  stepLanguage.withValidator "steps" fun n _ =>
    if 2 < n.segment.count then some "too long" else none

/-- Letters and pairs, where a pair that is begun need not be completed. -/
def patientSteps : Language := .ofGrammar ⟨"steps",
  [⟨"steps", .composite ⟨⟨.sequence,
      [.mk (.group .choice pairOrLetter) .zeroOrMore]⟩, none⟩, none⟩,
    ⟨"pair", .composite ⟨⟨.sequence, [.mk (.character 'a') .once, .mk (.character 'b') .once]⟩,
      none⟩, none⟩]⟩

theorem fewSteps_commitsBefore : fewSteps.CommitsBefore patientSteps := by
  intro symbol
  simp only [fewSteps, Language.withValidator, patientSteps, stepLanguage, Language.ofGrammar,
    Grammar.find?, List.find?_cons]
  split
  · exact .some (.composite ⟨rfl, by simp⟩)
  · split
    · exact .some (.composite ⟨rfl, by simp⟩)
    · exact .none

/-- What is recognized from where it begins has no tokens, hence no more than two. -/
theorem fewSteps_keepsIdle (src : Source) : fewSteps.KeepsIdle src := by
  intro path r p n hfound hp hrun v hv
  have horderly := r.rule.recognizer_orderly (fewSteps.scope_orderly src (fewSteps.stage src))
  rw [Language.scope_source] at horderly
  obtain ⟨-, -, hoffset, hstop⟩ := (horderly path p hp).advances n p hrun
  have hempty : ¬ 2 < n.segment.count := by
    simp only [Segment.stop] at hstop
    omega
  have hnone : r.validator = none := by
    have hmem := List.mem_of_find?_eq_some hfound
    simp only [fewSteps, Language.withValidator, stepLanguage, Language.ofGrammar, List.mem_cons,
      List.not_mem_nil, or_false] at hmem
    rcases hmem with rfl | rfl <;> rfl
  rw [hnone] at hv
  simp only [fewSteps, Language.withValidator, stepLanguage, Language.ofGrammar] at hv
  split at hv
  · obtain rfl := Option.mem_some_iff.mp hv
    simp only [if_neg hempty]
  · cases hv

/-- A second pair is begun and not completed: with the threshold that is the end of it. -/
theorem commitment_conservative_steps :
    Grammar.build "steps" fewSteps.grammar.productions = .ok fewSteps.grammar ∧
      Grammar.build "steps" patientSteps.grammar.productions = .ok patientSteps.grammar ∧
      fewSteps.CommitsBefore patientSteps ∧ patientSteps.Unvalidated ∧
      fewSteps.KeepsIdle (Source.ofString "aba") ∧ 0 ≤ (Source.ofString "aba").size ∧
      (∃ n, patientSteps.recognizeAt (Source.ofString "aba") "steps" 0 = .success n 3) ∧
      ∃ d, fewSteps.recognizeAt (Source.ofString "aba") "steps" 0 = .failure d 0 ∧
        d.isIncomplete = true := by
  have hbuild : Grammar.build "steps" fewSteps.grammar.productions = .ok fewSteps.grammar := rfl
  have hbuild' : Grammar.build "steps" patientSteps.grammar.productions =
    .ok patientSteps.grammar := rfl
  have hunvalidated : patientSteps.Unvalidated :=
    ⟨by simp [patientSteps, Language.ofGrammar], fun _ => rfl⟩
  have hsteps := (commitment_conservative hbuild hbuild' fewSteps_commitsBefore hunvalidated
    (fewSteps_keepsIdle (Source.ofString "aba")) (p := 0) (by decide)).1 "steps"
  have hpatient : ∃ n, patientSteps.recognizeAt (Source.ofString "aba") "steps" 0 =
    .success n 3 := ⟨_, rfl⟩
  have hfew : ∃ d, fewSteps.recognizeAt (Source.ofString "aba") "steps" 0 = .failure d 0 := ⟨_, rfl⟩
  refine ⟨hbuild, hbuild', fewSteps_commitsBefore, hunvalidated, fewSteps_keepsIdle _, by decide,
    hpatient, hsteps.resolve_left ?_⟩
  obtain ⟨n, hn⟩ := hpatient
  obtain ⟨d, hd⟩ := hfew
  rw [hn, hd]
  simp

end ConcreteSyntax
