import ConcreteSyntax.Proofs.Grammar.Closure

/-!
# Left calls

In a grammar without violations no chain of calls on the left comes back to where
it began. How many symbols are still reached through such calls is therefore a
rank, which every one of them lowers.
-/

namespace ConcreteSyntax.Grammar

/-- Accepted are the grammars without violations. -/
theorem build_eq_ok_iff {root : String} {productions : List Production} {g : Grammar} :
    build root productions = .ok g ↔
      violationsOf root productions = [] ∧ ofProductions root productions = g := by
  unfold build
  cases h : violationsOf root productions with
  | nil => simp
  | cons v vs => simp

theorem violationUnlessEmpty_eq_nil_iff {α : Type} {kind : List α → Violation} {affected : List α} :
    violationUnlessEmpty kind affected = [] ↔ affected = [] := by
  unfold violationUnlessEmpty
  cases affected <;> simp

theorem leftRecursive_eq_nil_of_build {root : String} {productions : List Production} {g : Grammar}
    (h : build root productions = .ok g) : g.leftRecursive = [] := by
  obtain ⟨hnone, rfl⟩ := build_eq_ok_iff.mp h
  rw [violationsOf, violations] at hnone
  simp only [List.append_eq_nil_iff] at hnone
  exact violationUnlessEmpty_eq_nil_iff.mp hnone.2.2

/-- What a rule of the grammar calls on the left. -/
def calledLeft (g : Grammar) : Rule → List String := Rule.leftCalls g.nullable.contains

/-- One production may call the other before it has read a token. -/
def LeftCalls (g : Grammar) : String → String → Prop := g.Leads g.calledLeft

/-- How many symbols a production may come to call before it has read a token. -/
def leftRank (g : Grammar) (s : String) : Nat :=
  (g.closure g.calledLeft (g.successors g.calledLeft s)).length

theorem leftRank_le (g : Grammar) (s : String) : g.leftRank s ≤ g.productions.length :=
  (g.closure_explored g.calledLeft _).1.length_le

theorem mem_leftRecursive_iff {g : Grammar} {s : String} :
    s ∈ g.leftRecursive ↔
      s ∈ g.symbols ∧ s ∈ g.closure g.calledLeft (g.successors g.calledLeft s) := by
  unfold leftRecursive
  rw [List.mem_filter, List.contains_iff_mem]
  rfl

/-- **Ranks.** Without left recursion every call on the left lowers the rank. -/
theorem leftRank_lt {g : Grammar} (h : g.leftRecursive = []) {s t : String}
    (hst : g.LeftCalls s t) : g.leftRank t < g.leftRank s := by
  obtain ⟨-, htdefined⟩ := hst.mem_symbols
  have htdefines := g.defines_iff.mpr htdefined
  have hsub : g.closure g.calledLeft (g.successors g.calledLeft t) ⊆
      g.closure g.calledLeft (g.successors g.calledLeft s) := by
    intro u hu
    obtain ⟨v, hv, -, hvu⟩ := (g.mem_closure_iff _).mp hu
    exact (g.mem_closure_iff _).mpr ⟨t, hst, htdefines, .head hv hvu⟩
  have ht : t ∈ g.closure g.calledLeft (g.successors g.calledLeft s) :=
    (g.mem_closure_iff _).mpr ⟨t, hst, htdefines, .refl⟩
  -- what `t` reaches does not include `t` itself
  have hnot : t ∉ g.closure g.calledLeft (g.successors g.calledLeft t) := by
    intro hmem
    have hrec := mem_leftRecursive_iff.mpr ⟨htdefined, hmem⟩
    rw [h] at hrec
    exact absurd hrec List.not_mem_nil
  have hnodup := (g.closure_explored g.calledLeft (g.successors g.calledLeft t)).1.nodup
  have hle := (List.subperm_of_subset (List.nodup_cons.mpr ⟨hnot, hnodup⟩)
    (List.cons_subset.mpr ⟨ht, hsub⟩)).length_le
  rw [List.length_cons] at hle
  exact hle

end ConcreteSyntax.Grammar
