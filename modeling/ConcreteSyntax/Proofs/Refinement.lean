import ConcreteSyntax.Proofs.Agreement

/-!
# Recognition refines parsing

At every stage, what is recognized of a translatable language has the outcome that
its expression has. Since recognition always comes to an answer and outcomes are
unique, the two have the same outcomes.
-/

namespace ConcreteSyntax

open ParsingExpression

/-! ## Rules -/

section

variable {rules : String → ParsingExpression} {scope full : Scope}
variable (horderly : ∀ symbol, NodeRecognizer.Orderly scope.source (scope.production symbol))
variable (hproduction : ∀ symbol,
  NodeRecognizer.Follows rules scope.source (scope.production symbol) (rules symbol))
variable (hle : scope ≤ full)

include horderly hproduction hle

/-- **Elements.** Kinds and elements that can be translated are recognized just as
their expressions parse, if the productions in scope are. -/
theorem Kind.follows :
    (∀ k : Kind, k.Translatable full →
        ForestRecognizer.Follows rules scope.source (k.recognizer scope) k.expression) ∧
      ∀ e : Element, e.Translatable full →
        ForestRecognizer.Follows rules scope.source (e.recognizer scope) e.expression := by
  obtain ⟨hkinds, helements⟩ := Kind.recognizer_orderly horderly
  apply Kind.induction
  · intro symbol _ path p hp
    rw [Kind.recognizer, Kind.expression]
    exact (hproduction symbol _ p hp).toForest.imp fun _ => .call
  · intro rule htranslatable path p hp
    rw [Kind.recognizer, Kind.expression]
    cases htranslatable with
    | literal l => exact (l.follows _ p hp).toForest
    | charClass k => exact (k.follows _ p hp).toForest
    | endOfInput => exact (Terminal.recognizeEnd_follows _ p hp).toForest
  · intro aggregation elements ih htranslatable
    rw [Kind.recognizer]
    cases htranslatable with
    | sequence parts =>
        simp only [Aggregation.recognizer, Element.map_recognizer_members, Kind.expression,
          Element.expressions_eq_map]
        exact sequence_follows (fun e _ => helements e) fun e he => ih e he (parts e he)
    | choice parts =>
        simp only [Aggregation.recognizer, Element.map_recognizer_members, Kind.expression,
          Element.expressions_eq_map]
        exact choice_follows (fun e _ => helements e) fun e he => ih e he (parts e he)
  · intro kind cardinality ih htranslatable
    rw [Element.recognizer_mk]
    cases htranslatable with
    | mk part consumes =>
        apply Cardinality.repeating_follows (hkinds kind) (ih part)
        intro hmax path p f hp hrun
        -- what succeeds in scope succeeds in the full scope as well
        have hfull := Reply.eq_of_le ((Kind.recognizer_mono hle).1 kind path p) (by simp [hrun])
        exact consumes hmax path p f (hle.1 ▸ hp) (hfull.trans hrun)

theorem Rule.follows (r : Rule) (htranslatable : r.Translatable full) :
    NodeRecognizer.Follows rules scope.source (r.recognizer scope) r.expression := by
  intro path p hp
  cases r with
  | terminal rule =>
      rw [Rule.recognizer, Rule.expression]
      cases htranslatable with
      | literal l => exact l.follows path p hp
      | charClass k => exact k.follows path p hp
      | endOfInput => exact Terminal.recognizeEnd_follows path p hp
  | composite r =>
      obtain ⟨hthreshold, hgroup⟩ := htranslatable
      have hkind := (Kind.follows horderly hproduction hle).1 _ hgroup path p hp
      rw [Group.recognizer_toKind] at hkind
      rw [Rule.recognizer, Rule.expression]
      rcases r.recognizer_cases path (r.group.recognizer_orderly horderly) hp with
        ⟨f, q, hrun, hr⟩ | ⟨d, hrun, hr⟩ | ⟨-, hr⟩ <;> rw [hr]
      · exact .success (hkind.ends f q hrun)
      · obtain ⟨hfailed, hnone⟩ := hkind.fails d p hrun
        rw [Composite.conclude, hthreshold]
        exact .failure hfailed hnone
      · exact .unfinished

end

/-! ## Languages -/

namespace Language

variable {l : Language} {src : Source}

/-- **Stages.** Up to the last stage productions are recognized just as their
expressions parse. -/
theorem scope_follows (htranslatable : l.Translatable src) (n : Nat) : n ≤ l.stage src →
    ∀ symbol, NodeRecognizer.Follows l.expression (l.scope src n).source
      ((l.scope src n).production symbol) (l.expression symbol) := by
  induction n with
  | zero =>
      intro _ symbol path p _
      exact .unfinished
  | succ n ih =>
      intro hn symbol path p hp
      rw [scope_source] at hp ⊢
      rw [scope_production_succ, production, expression]
      cases hfind : l.grammar.find? symbol with
      | none => exact .failure rfl (parses_fail p)
      | some r =>
          have hr : r ∈ l.grammar.productions := List.mem_of_find?_eq_some hfind
          have horderly := l.scope_orderly src n
          have hle : l.scope src n ≤ l.fullScope src := l.scope_mono src (Nat.le_of_succ_le hn)
          have hrule := r.rule.follows horderly (ih (Nat.le_of_succ_le hn)) hle
            (htranslatable.rules r hr) path p (by simpa using hp)
          have hvalidator : (r.validator <|> l.validators symbol) = none := by
            simp [htranslatable.unvalidated r hr, htranslatable.unregistered symbol]
          rw [scope_source] at hrule
          rcases r.recognizer_cases (l.validators symbol) path
            (r.rule.recognizer_orderly horderly) (by simpa using hp) with
            ⟨m, q, hrun, -, h⟩ | ⟨m, q, d, -, hrefused, -⟩ | ⟨d, hrun, h⟩ | ⟨-, h⟩
          · simp only [h]
            exact hrun ▸ hrule
          · -- there is no validator to refuse the node
            have hadmits : Production.Admits (r.validator <|> l.validators symbol)
                (l.scope src n).source m := by
              intro v hv
              rw [hvalidator] at hv
              cases hv
            exact absurd hadmits hrefused
          · simp only [h]
            exact hrun ▸ hrule
          · simp only [h]
            exact .unfinished

end Language

/-- **Parsing expressions.** In a grammar without violations that can be translated,
a production is recognized up to a position just if its expression parses up to
there, it fails just if its expression does, and no failure commits tokens. -/
theorem recognition_parses {root : String} {productions : List Production} {l : Language}
    (hbuild : Grammar.build root productions = .ok l.grammar) (src : Source)
    (htranslatable : l.Translatable src) (symbol : String) {p : Nat} (hp : p ≤ src.size) :
    (∀ q, (∃ node, l.recognizeAt src symbol p = .success node q) ↔
        Parses l.expression src (l.expression symbol) p (some q)) ∧
      ((∃ path position, l.recognizeAt src symbol p = .failure (.failed path position) p) ↔
        Parses l.expression src (l.expression symbol) p none) ∧
      ∀ d q, l.recognizeAt src symbol p = .failure d q → d.isIncomplete = false := by
  have hanswer := (recognition_backtracks hbuild src hp (.root symbol)).1 symbol
  have hfollows : (l.recognizeAt src symbol p).Follows Diagnosis.isFailed
      (Parses l.expression src (l.expression symbol) p) := by
    have h := l.scope_follows htranslatable (l.stage src) (Nat.le_refl _) symbol
    rw [Language.scope_source] at h
    exact h (.root symbol) p hp
  obtain ⟨hends, hfails⟩ := hfollows.outcome_iff hanswer fun _ _ h h' => h.deterministic h'
  have hfailed : (∃ path position, l.recognizeAt src symbol p = .failure (.failed path position) p) ↔
      ∃ d : Diagnosis, d.isFailed = true ∧ l.recognizeAt src symbol p = .failure d p := by
    constructor
    · rintro ⟨path, position, h⟩
      exact ⟨_, rfl, h⟩
    · rintro ⟨d, hd, h⟩
      cases d with
      | failed path position => exact ⟨path, position, h⟩
      | incomplete _ _ _ _ _ => cases hd
  refine ⟨hends, hfailed.trans hfails, ?_⟩
  intro d q h
  exact Diagnosis.isIncomplete_eq_false_iff.mpr (hfollows.fails d q h).1

theorem listLanguage_translatable (src : Source) : listLanguage.Translatable src where
  rules := by
    have character (c : Char) :
        (Element.mk (.character c) .once).Translatable (listLanguage.fullScope src) :=
      .mk (.literal _) fun h => absurd rfl h
    have reference (symbol : String) (c : Cardinality)
        (h : c.max ≠ some 1 → listLanguage.grammar.nullable.contains symbol = false) :
        (Element.mk (.reference symbol) c).Translatable (listLanguage.fullScope src) := by
      refine .mk (.reference symbol) fun hmax => ?_
      rw [Language.fullScope, Language.scope_source]
      exact Kind.consumes_of_not_nullable (h hmax)
    intro r hr
    change r ∈ lists at hr
    simp only [lists, List.mem_cons, List.not_mem_nil, or_false] at hr
    rcases hr with rfl | rfl | rfl
    · refine ⟨rfl, .sequence ?_⟩
      simp only [List.forall_mem_cons]
      exact ⟨reference "space" _ fun _ => rfl, reference "item" _ fun _ => rfl, by simp⟩
    · refine ⟨rfl, .choice ?_⟩
      simp only [List.forall_mem_cons]
      refine ⟨character 'a', .mk (.sequence ?_) fun h => absurd rfl h, by simp⟩
      simp only [List.forall_mem_cons]
      exact ⟨character '(', reference "list" _ fun h => absurd rfl h, character ')', by simp⟩
    · exact .literal _
  unvalidated := by
    intro r hr
    change r ∈ lists at hr
    simp only [lists, List.mem_cons, List.not_mem_nil, or_false] at hr
    rcases hr with rfl | rfl | rfl <;> rfl
  unregistered := fun _ => rfl

/-- A space, an item and another. -/
theorem recognition_parses_lists :
    Grammar.build "list" lists = .ok listLanguage.grammar ∧
      listLanguage.Translatable (Source.ofString " aa") ∧ 0 ≤ (Source.ofString " aa").size ∧
      Parses listLanguage.expression (Source.ofString " aa") (listLanguage.expression "list") 0
        (some 3) := by
  have htranslatable := listLanguage_translatable (Source.ofString " aa")
  have hparses := recognition_parses build_lists _ htranslatable "list" (Nat.zero_le _)
  exact ⟨build_lists, htranslatable, Nat.zero_le _, (hparses.1 3).mp ⟨_, rfl⟩⟩

end ConcreteSyntax
