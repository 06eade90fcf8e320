import ConcreteSyntax.Grammar.Analysis
import ConcreteSyntax.Proofs.RuleInduction
import Mathlib.Data.List.Basic

/-!
# Least fixed points

A property of rules that never gets lost when more symbols are known to have it
is computed by rounds: they only grow, and since every round but the last adds a
production, one more round than there are productions adds nothing.
-/

namespace ConcreteSyntax

variable {property : (String → Bool) → Rule → Bool}

/-- The property does not get lost when more symbols are known to have it. -/
def Rule.Persistent (property : (String → Bool) → Rule → Bool) : Prop :=
  ∀ ⦃known known' : String → Bool⦄, (∀ s, known s = true → known' s = true) →
    ∀ r, property known r = true → property known' r = true

namespace Grammar

variable (g : Grammar)

theorem mem_round_iff {known : List String} {s : String} :
    s ∈ g.round property known ↔
      ∃ r ∈ g.productions, property known.contains r.rule = true ∧ r.symbol = s := by
  simp [round, List.mem_map, List.mem_filter, and_assoc]

theorem length_round_le (known : List String) :
    (g.round property known).length ≤ g.productions.length := by
  rw [round, List.length_map]
  exact List.length_filter_le _ _

theorem round_sublist (hp : Rule.Persistent property) {known known' : List String}
    (h : known ⊆ known') : (g.round property known).Sublist (g.round property known') := by
  apply List.Sublist.map
  apply List.monotone_filter_right
  intro r hr
  have hknown : ∀ s, known.contains s = true → known'.contains s = true := by
    intro s hs
    rw [List.contains_iff_mem] at hs ⊢
    exact h hs
  exact hp hknown r.rule hr

theorem rounds_sublist_succ (hp : Rule.Persistent property) (n : Nat) :
    (g.rounds property n).Sublist (g.rounds property (n + 1)) := by
  induction n with
  | zero => exact List.nil_sublist _
  | succ n ih => exact g.round_sublist hp ih.subset

/-- As long as rounds add something, there are as many symbols as there were
rounds. -/
theorem rounds_grow (hp : Rule.Persistent property) (n : Nat) :
    n ≤ (g.rounds property n).length ∨ g.rounds property (n + 1) = g.rounds property n := by
  induction n with
  | zero => exact Or.inl (Nat.zero_le _)
  | succ n ih =>
      by_cases hfixed : g.rounds property (n + 1) = g.rounds property n
      · exact Or.inr (congrArg (g.round property) hfixed)
      · have hn := ih.resolve_right hfixed
        have hsub := g.rounds_sublist_succ hp n
        have hlen : ¬ (g.rounds property (n + 1)).length ≤ (g.rounds property n).length := by
          intro hle
          exact hfixed (hsub.eq_of_length_le hle).symm
        exact Or.inl (by omega)

/-- **Fixed points.** One more round adds nothing. -/
theorem round_leastHaving (hp : Rule.Persistent property) :
    g.round property (g.leastHaving property) = g.leastHaving property := by
  rcases g.rounds_grow hp g.productions.length with hlen | hfixed
  · have hsub := g.rounds_sublist_succ hp g.productions.length
    have hle : (g.rounds property (g.productions.length + 1)).length ≤ g.productions.length :=
      g.length_round_le _
    exact (hsub.eq_of_length_le (Nat.le_trans hle hlen)).symm
  · exact hfixed

/-- The symbols found are those of productions with the property, given just
these. -/
theorem mem_leastHaving_iff (hp : Rule.Persistent property) {s : String} :
    s ∈ g.leastHaving property ↔
      ∃ r ∈ g.productions, property (g.leastHaving property).contains r.rule = true ∧
        r.symbol = s := by
  conv_lhs => rw [← g.round_leastHaving hp]
  exact g.mem_round_iff

end Grammar

/-! ## Nullability -/

theorem Element.nullability_eq_map (nullable : String → Bool) (es : List Element) :
    Element.nullability nullable es = es.map (Element.isNullable nullable) := by
  induction es with
  | nil => rfl
  | cons e rest ih =>
      obtain ⟨kind, cardinality⟩ := e
      rw [Element.nullability, ih]
      rfl

/-- More symbols that can succeed without a token let more rules do so. -/
theorem Kind.isNullable_mono {nullable nullable' : String → Bool}
    (h : ∀ s, nullable s = true → nullable' s = true) :
    (∀ k : Kind, k.isNullable nullable = true → k.isNullable nullable' = true) ∧
      ∀ e : Element, e.isNullable nullable = true → e.isNullable nullable' = true := by
  apply Kind.induction
  · intro symbol
    simpa only [Kind.isNullable] using h symbol
  · intro rule hrule
    simpa only [Kind.isNullable] using hrule
  · intro aggregation elements ih hk
    simp only [Kind.isNullable, Element.nullability_eq_map] at hk ⊢
    cases aggregation with
    | sequence =>
        simp only [Aggregation.isNullable, List.all_map, List.all_eq_true, Function.comp,
          id_eq] at hk ⊢
        intro e he
        exact ih e he (hk e he)
    | choice =>
        simp only [Aggregation.isNullable, List.any_map, List.any_eq_true, Function.comp,
          id_eq] at hk ⊢
        obtain ⟨e, he, hn⟩ := hk
        exact ⟨e, he, ih e he hn⟩
    | set minimum => exact hk
  · intro kind cardinality ih he
    simp only [Element.isNullable, Bool.or_eq_true] at he ⊢
    exact he.imp id ih

theorem Rule.isNullable_persistent : Rule.Persistent Rule.isNullable := by
  intro nullable nullable' h r hr
  cases r with
  | terminal rule => exact hr
  | composite r => exact (Kind.isNullable_mono h).1 _ hr

/-- A production whose rule can succeed without a token is nullable. -/
theorem Grammar.mem_nullable (g : Grammar) {r : Production} (hr : r ∈ g.productions)
    (h : r.rule.isNullable g.nullable.contains = true) : r.symbol ∈ g.nullable :=
  (g.mem_leastHaving_iff Rule.isNullable_persistent).mpr ⟨r, hr, h, rfl⟩

end ConcreteSyntax
