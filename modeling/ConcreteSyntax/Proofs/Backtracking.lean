import ConcreteSyntax.Proofs.Approximation
import ConcreteSyntax.Proofs.SetOrders
import ConcreteSyntax.Proofs.Terminal.Reading

/-!
# Rules are orderly

Whatever rules are made of, they make no request outside its domain, stay within
the input and give back what they read for nothing, as long as the productions
they refer to do. At stage 0 productions read nothing at all, so by induction
over the stages all do.
-/

namespace ConcreteSyntax

variable {src : Source} {scope : Scope} {path : Path} {p : Nat}

/-! ## Kinds, elements and groups -/

theorem members_orderly {es : List Element}
    (h : ∀ e ∈ es, ForestRecognizer.Orderly src (e.recognizer scope)) :
    ∀ m ∈ Element.members scope es, ForestRecognizer.Orderly src m.recognizer := by
  intro m hm
  rw [Element.members_eq_map] at hm
  obtain ⟨e, he, rfl⟩ := List.mem_map.mp hm
  exact h e he

theorem Aggregation.recognizer_orderly (a : Aggregation) {ms : List Member}
    (h : ∀ m ∈ ms, ForestRecognizer.Orderly src m.recognizer) :
    ForestRecognizer.Orderly src (a.recognizer src ms) := by
  have hmap : ∀ r ∈ ms.map Member.recognizer, ForestRecognizer.Orderly src r := by
    intro r hr
    obtain ⟨m, hm, rfl⟩ := List.mem_map.mp hr
    exact h m hm
  cases a with
  | sequence => exact sequence_orderly hmap
  | choice => exact choice_orderly hmap
  | set minimum => exact anyOrder_orderly _ h

/-- **Elements.** The parts of a rule are orderly if the productions in scope are. -/
theorem Kind.recognizer_orderly
    (hproduction : ∀ symbol, NodeRecognizer.Orderly scope.source (scope.production symbol)) :
    (∀ k : Kind, ForestRecognizer.Orderly scope.source (k.recognizer scope)) ∧
      ∀ e : Element, ForestRecognizer.Orderly scope.source (e.recognizer scope) := by
  apply Kind.induction
  · intro symbol path p hp
    have h := hproduction symbol (path.child symbol) p hp
    exact h.toForest
  · intro rule path p hp
    have h := rule.recognize_orderly (path.child rule.inlineSymbol) p hp
    exact h.toForest
  · intro aggregation elements h
    rw [Kind.recognizer]
    exact aggregation.recognizer_orderly (members_orderly h)
  · intro kind cardinality h
    rw [Element.recognizer_mk]
    exact cardinality.repeating_orderly _ h

theorem Group.recognizer_orderly (g : Group)
    (hproduction : ∀ symbol, NodeRecognizer.Orderly scope.source (scope.production symbol)) :
    ForestRecognizer.Orderly scope.source (g.recognizer scope) := by
  rw [← Group.recognizer_toKind]
  exact (Kind.recognizer_orderly hproduction).1 _

/-! ## Rules -/

theorem Node.ofChildren_of_within {symbol : String} {q : Nat} {nodes : List Node} (hpq : p ≤ q)
    (h : ∀ n ∈ nodes, n.Within p q) :
    Node.ofChildren symbol ⟨p, q - p⟩ nodes = .ok (.composite symbol ⟨p, q - p⟩ nodes) := by
  have hcovered : (nodes.all fun c => c.segment.coveredBy ⟨p, q - p⟩) = true := by
    rw [List.all_eq_true]
    intro n hn
    obtain ⟨h₁, h₂⟩ := h n hn
    simp only [Segment.coveredBy, Bool.and_eq_true, decide_eq_true_eq]
    refine ⟨h₁, ?_⟩
    simp only [Segment.stop] at h₂ ⊢
    omega
  rw [ofChildren, if_pos hcovered]

/-- **Composites.** The nodes that the group yields become the children; its
diagnosis, that of the rule. -/
theorem Composite.recognizer_cases (r : Composite) (path : Path)
    (hgroup : ForestRecognizer.Orderly src (r.group.recognizer scope)) (hp : p ≤ src.size) :
    (∃ f q, r.group.recognizer scope path p = .success f q ∧
        r.recognizer scope path p = .success (.composite path.symbol ⟨p, q - p⟩ f.nodes) q) ∨
      (∃ d, r.group.recognizer scope path p = .failure d p ∧
        r.recognizer scope path p = .failure (r.conclude path p d) p) ∨
      r.group.recognizer scope path p = .unfinished ∧ r.recognizer scope path p = .unfinished := by
  have horderly := hgroup path p hp
  unfold Composite.recognizer
  cases hrun : r.group.recognizer scope path p with
  | success f q =>
      obtain ⟨hpq, -, hwithin⟩ := horderly.advances f q hrun
      refine Or.inl ⟨f, q, rfl, ?_⟩
      simp [Segment.ofBounds_of_le hpq, Node.ofChildren_of_within hpq hwithin]
  | failure d q =>
      obtain rfl := horderly.returns d q hrun
      exact Or.inr (Or.inl ⟨d, rfl, by simp⟩)
  | fault f => exact absurd hrun (horderly.answers f)
  | unfinished => exact Or.inr (Or.inr ⟨rfl, rfl⟩)

theorem Composite.recognizer_success {r : Composite} {n : Node} {q : Nat}
    (hgroup : ForestRecognizer.Orderly src (r.group.recognizer scope)) (hp : p ≤ src.size)
    (h : r.recognizer scope path p = .success n q) :
    ∃ f, r.group.recognizer scope path p = .success f q ∧
      n = .composite path.symbol ⟨p, q - p⟩ f.nodes := by
  rcases r.recognizer_cases path hgroup hp with ⟨f, m, hrun, hr⟩ | ⟨d, -, hr⟩ | ⟨-, hr⟩ <;>
    rw [hr] at h
  · rw [Reply.success.injEq] at h
    obtain ⟨rfl, rfl⟩ := h
    exact ⟨f, hrun, rfl⟩
  · cases h
  · cases h

theorem Composite.recognizer_orderly (r : Composite)
    (hgroup : ForestRecognizer.Orderly src (r.group.recognizer scope)) :
    NodeRecognizer.Orderly src (r.recognizer scope) := by
  intro path p hp
  rcases r.recognizer_cases path hgroup hp with ⟨f, q, hrun, h⟩ | ⟨d, -, h⟩ | ⟨-, h⟩ <;> rw [h]
  · obtain ⟨hpq, hq, -⟩ := (hgroup path p hp).advances f q hrun
    refine .success hpq hq ⟨Nat.le_refl p, ?_⟩
    simp only [Node.segment, Segment.stop]
    omega
  · exact .failure _
  · exact .unfinished

theorem Rule.recognizer_orderly (r : Rule)
    (hproduction : ∀ symbol, NodeRecognizer.Orderly scope.source (scope.production symbol)) :
    NodeRecognizer.Orderly scope.source (r.recognizer scope) := by
  cases r with
  | terminal rule => exact rule.recognize_orderly
  | composite r => exact r.recognizer_orderly (r.group.recognizer_orderly hproduction)

/-! ## Productions -/

/-- The validator, if there is one, has nothing to say against the node. -/
def Production.Admits (validator : Option Validator) (src : Source) (node : Node) : Prop :=
  ∀ v ∈ validator, v node src = none

theorem Production.validated_cases (validator : Option Validator) (path : Path) (node : Node)
    {q : Nat} (hpq : p ≤ q) (hp : p ≤ src.size) :
    (Admits validator src node ∧ validated validator src path p node q = .success node q) ∨
      ¬ Admits validator src node ∧ ∃ d, validated validator src path p node q = .failure d p := by
  unfold validated
  cases h : validator.bind fun v => v node src with
  | none =>
      refine Or.inl ⟨?_, rfl⟩
      intro v hv
      rw [Option.mem_def] at hv
      simpa [hv] using h
  | some reason =>
      refine Or.inr ⟨?_, ?_⟩
      · intro hadmits
        obtain ⟨v, hv, hreason⟩ := Option.bind_eq_some_iff.mp h
        rw [hadmits v hv] at hreason
        cases hreason
      · simp only [distance_of_le hpq, Source.seek_of_le hp, Reply.check_ok]
        split
        · exact ⟨_, rfl⟩
        · exact ⟨_, rfl⟩

/-- **Productions.** The node of the rule is passed on if it is admitted. -/
theorem Production.recognizer_cases (r : Production) (fallback : Option Validator) (path : Path)
    (hrule : NodeRecognizer.Orderly scope.source (r.rule.recognizer scope))
    (hp : p ≤ scope.source.size) :
    (∃ n q, r.rule.recognizer scope path p = .success n q ∧
        Admits (r.validator <|> fallback) scope.source n ∧
        r.recognizer fallback scope path p = .success n q) ∨
      (∃ n q d, r.rule.recognizer scope path p = .success n q ∧
        ¬ Admits (r.validator <|> fallback) scope.source n ∧
        r.recognizer fallback scope path p = .failure d p) ∨
      (∃ d, r.rule.recognizer scope path p = .failure d p ∧
        r.recognizer fallback scope path p = .failure d p) ∨
      r.rule.recognizer scope path p = .unfinished ∧
        r.recognizer fallback scope path p = .unfinished := by
  have horderly := hrule path p hp
  unfold Production.recognizer
  cases hrun : r.rule.recognizer scope path p with
  | success n q =>
      obtain ⟨hpq, -, -⟩ := horderly.advances n q hrun
      rcases validated_cases (r.validator <|> fallback) path n hpq hp with
        ⟨hadmits, h⟩ | ⟨hrefused, d, h⟩
      · exact Or.inl ⟨n, q, rfl, hadmits, h⟩
      · exact Or.inr (Or.inl ⟨n, q, d, rfl, hrefused, h⟩)
  | failure d q =>
      obtain rfl := horderly.returns d q hrun
      exact Or.inr (Or.inr (Or.inl ⟨d, rfl, rfl⟩))
  | fault f => exact absurd hrun (horderly.answers f)
  | unfinished => exact Or.inr (Or.inr (Or.inr ⟨rfl, rfl⟩))

theorem Production.recognizer_success {r : Production} {fallback : Option Validator} {n : Node}
    {q : Nat} (hrule : NodeRecognizer.Orderly scope.source (r.rule.recognizer scope))
    (hp : p ≤ scope.source.size) (h : r.recognizer fallback scope path p = .success n q) :
    r.rule.recognizer scope path p = .success n q ∧
      Admits (r.validator <|> fallback) scope.source n := by
  rcases r.recognizer_cases fallback path hrule hp with
    ⟨m, s, hrun, hadmits, hr⟩ | ⟨m, s, d, -, -, hr⟩ | ⟨d, -, hr⟩ | ⟨-, hr⟩ <;> rw [hr] at h
  · rw [Reply.success.injEq] at h
    obtain ⟨rfl, rfl⟩ := h
    exact ⟨hrun, hadmits⟩
  · cases h
  · cases h
  · cases h

theorem Production.recognizer_orderly (r : Production) (fallback : Option Validator)
    (hproduction : ∀ symbol, NodeRecognizer.Orderly scope.source (scope.production symbol)) :
    NodeRecognizer.Orderly scope.source (r.recognizer fallback scope) := by
  have hrule := r.rule.recognizer_orderly hproduction
  intro path p hp
  rcases r.recognizer_cases fallback path hrule hp with
    ⟨n, q, hrun, -, h⟩ | ⟨n, q, d, -, -, h⟩ | ⟨d, -, h⟩ | ⟨-, h⟩ <;> rw [h]
  · obtain ⟨h₁, h₂, h₃⟩ := (hrule path p hp).advances n q hrun
    exact .success h₁ h₂ h₃
  · exact .failure d
  · exact .failure d
  · exact .unfinished

/-! ## Languages -/

namespace Language

variable (l : Language) (src : Source)

theorem production_orderly
    (hproduction : ∀ symbol, NodeRecognizer.Orderly scope.source (scope.production symbol))
    (symbol : String) : NodeRecognizer.Orderly scope.source (l.production scope symbol) := by
  unfold production
  cases l.grammar.find? symbol with
  | some r => exact r.recognizer_orderly _ hproduction
  | none =>
      intro path p _
      exact .failure _

/-- **Every stage is orderly.** -/
theorem scope_orderly (n : Nat) : ∀ symbol,
    NodeRecognizer.Orderly (l.scope src n).source ((l.scope src n).production symbol) := by
  induction n with
  | zero =>
      intro symbol path p _
      exact .unfinished
  | succ n ih =>
      intro symbol
      have h := l.production_orderly ih symbol
      rw [scope_source] at h ⊢
      exact h

/-- A production recognized at a stage was found, its rule was recognized at the
stage before, and the node was admitted. -/
theorem scope_success {l : Language} {src : Source} {n : Nat} {symbol : String} {path : Path}
    {p q : Nat} {node : Node} (hp : p ≤ src.size)
    (h : (l.scope src (n + 1)).production symbol path p = .success node q) :
    ∃ r, l.grammar.find? symbol = some r ∧
      r.rule.recognizer (l.scope src n) path p = .success node q ∧
      Production.Admits (r.validator <|> l.validators symbol) src node := by
  rw [scope_production_succ, production] at h
  cases hfind : l.grammar.find? symbol with
  | none =>
      rw [hfind] at h
      cases h
  | some r =>
      rw [hfind] at h
      have horderly := r.rule.recognizer_orderly (l.scope_orderly src n)
      have hrule := Production.recognizer_success horderly (by simpa using hp) h
      rw [scope_source] at hrule
      exact ⟨r, rfl, hrule⟩

end Language

end ConcreteSyntax
