import ConcreteSyntax.Language
import ConcreteSyntax.Proofs.Grammar.Validity

/-!
# Without validators

The analysis of a grammar knows nothing of validators: what is found of a grammar is found
of it as well when its productions are given without them. Then a production passes on
whatever its rule says.
-/

namespace ConcreteSyntax

/-! ## Languages that refuse nothing -/

/-- No production has a validator, and none is registered elsewhere. -/
structure Language.Unvalidated (l : Language) : Prop where
  productions : ∀ r ∈ l.grammar.productions, r.validator = none
  registered : ∀ symbol, l.validators symbol = none

theorem Production.recognizer_of_unvalidated {r : Production} (h : r.validator = none)
    (scope : Scope) (path : Path) (p : Nat) :
    r.recognizer none scope path p = r.rule.recognizer scope path p := by
  unfold Production.recognizer
  cases r.rule.recognizer scope path p <;> simp [validated, h]

/-! ## Leaving out validators -/

def Production.unvalidated (r : Production) : Production := { r with validator := none }

def Grammar.unvalidated (g : Grammar) : Grammar :=
  ⟨g.root, g.productions.map Production.unvalidated⟩

/-- The language of the grammar without any validators. -/
def Language.unvalidated (l : Language) : Language := .ofGrammar l.grammar.unvalidated

theorem Language.unvalidated_unvalidated (l : Language) : l.unvalidated.Unvalidated where
  productions := List.forall_mem_map.mpr fun _ _ => rfl
  registered _ := rfl

namespace Grammar

variable (g : Grammar)

theorem find?_unvalidated (s : String) :
    g.unvalidated.find? s = (g.find? s).map Production.unvalidated := by
  simp only [find?, unvalidated, List.find?_map]
  rfl

theorem symbols_unvalidated : g.unvalidated.symbols = g.symbols := by
  simp only [symbols, unvalidated, List.map_map]
  rfl

/-- A symbol leads to the same rules as before. -/
theorem exists_find?_unvalidated_iff {s : String} {P : Rule → Prop} :
    (∃ r, g.unvalidated.find? s = some r ∧ P r.rule) ↔ ∃ r, g.find? s = some r ∧ P r.rule := by
  rw [find?_unvalidated]
  constructor
  · rintro ⟨r', hfound', hr⟩
    obtain ⟨r, hfound, rfl⟩ := Option.map_eq_some_iff.mp hfound'
    exact ⟨r, hfound, hr⟩
  · rintro ⟨r, hfound, hr⟩
    exact ⟨r.unvalidated, by rw [hfound, Option.map_some], hr⟩

theorem least_unvalidated (has : (String → Prop) → Rule → Prop) :
    g.unvalidated.Least has = g.Least has := by
  have hclosed (known : String → Prop) :
      g.unvalidated.ClosedUnder has known ↔ g.ClosedUnder has known := by
    have hsame (s : String) := g.exists_find?_unvalidated_iff (s := s) (P := has known)
    constructor
    · intro h s r hfound hr
      obtain ⟨r', hfound', hr'⟩ := (hsame s).mpr ⟨r, hfound, hr⟩
      exact h s r' hfound' hr'
    · intro h s r hfound hr
      obtain ⟨r', hfound', hr'⟩ := (hsame s).mp ⟨r, hfound, hr⟩
      exact h s r' hfound' hr'
  funext s
  simp only [Least, hclosed]

theorem refersTo_unvalidated : g.unvalidated.RefersTo = g.RefersTo := by
  funext s t
  exact propext g.exists_find?_unvalidated_iff

theorem opensWith_unvalidated : g.unvalidated.OpensWith = g.OpensWith := by
  funext s t
  simp only [OpensWith, Nullable, least_unvalidated]
  exact propext g.exists_find?_unvalidated_iff

variable {g}

theorem Valid.unvalidated (h : g.Valid) : g.unvalidated.Valid where
  distinct := by rw [symbols_unvalidated]; exact h.distinct
  rooted := by rw [symbols_unvalidated]; exact h.rooted
  closed := by
    rw [symbols_unvalidated]
    exact List.forall_mem_map.mpr h.closed
  reached := by
    rw [symbols_unvalidated, refersTo_unvalidated]
    exact h.reached
  productive := by
    rw [symbols_unvalidated, Productive, least_unvalidated]
    exact h.productive
  guarded := by
    rw [opensWith_unvalidated]
    exact h.guarded

theorem valid_of_build {root : String} {rs : List Production} (h : build root rs = .ok g) :
    g.Valid := by
  obtain ⟨hnone, rfl⟩ := build_eq_ok_iff.mp h
  have haccounts := violationsOf_accounts root rs
  rw [hnone] at haccounts
  have hvalid : Valid ⟨root, rs⟩ := haccounts.valid
  have hsame : ofProductions root rs = ⟨root, rs⟩ :=
    congrArg (Grammar.mk root) (firsts_eq_self hvalid.distinct)
  exact hsame ▸ hvalid

theorem Valid.build (h : g.Valid) : Grammar.build g.root g.productions = .ok g :=
  build_eq_ok_iff.mpr ⟨h.violations_eq_nil (violationsOf_accounts _ _),
    congrArg (Grammar.mk g.root) (firsts_eq_self h.distinct)⟩

/-- The same symbols can succeed without a token. -/
theorem nullable_unvalidated (h : g.Valid) {s : String} :
    s ∈ g.unvalidated.nullable ↔ s ∈ g.nullable := by
  rw [mem_nullable_iff h.unvalidated.distinct, mem_nullable_iff h.distinct, Nullable, Nullable,
    least_unvalidated]

end Grammar

end ConcreteSyntax
