import ConcreteSyntax.Proofs.Correspondence
import ConcreteSyntax.Proofs.EarlyCommitment
import ConcreteSyntax.Proofs.Outcomes
import ConcreteSyntax.Proofs.Unvalidated

/-!
# What is not referred to

A recognition looks up the symbols that are referred to in the rules it tries, and those
are the symbols that chains of references lead to from the one it started with. Any other
production may be changed, left out or put elsewhere.
-/

namespace ConcreteSyntax

/-! ## Languages with the same productions from a symbol on -/

namespace Language

/-- A symbol has the same rule in both languages, and the same validator is asked, whether
it is the production's own or the one registered; or it has no production in either. -/
def SameProduction (l l' : Language) (s : String) : Prop :=
  Option.Rel (fun r r' => r.rule = r'.rule ∧
      (r.validator <|> l.validators s) = (r'.validator <|> l'.validators s))
    (l.grammar.find? s) (l'.grammar.find? s)

/-- All symbols that chains of references lead to have the same production. -/
def SameFrom (l l' : Language) (symbol : String) : Prop :=
  ∀ s, Relation.ReflTransGen l.grammar.RefersTo symbol s → l.SameProduction l' s

variable {l l' : Language} {symbol : String}

theorem SameFrom.agreeOn (h : l.SameFrom l' symbol) (src : Source) :
    AgreeOn (Relation.ReflTransGen l.grammar.RefersTo symbol) 0 src src l l' where
  productions s hs := by
    have hsame := h s hs
    unfold SameProduction at hsame
    generalize l.grammar.find? s = found at hsame ⊢
    generalize l'.grammar.find? s = found' at hsame ⊢
    cases hsame with
    | none => exact .none
    | @some r r' hsame =>
        refine .some ⟨hsame.1, ?_⟩
        rw [← hsame.2]
        exact .refl src _
  closed _ _ hs hst := hs.tail hst

/-- Whether or not the grammars are accepted, and at every stage. -/
theorem SameFrom.scope_eq (h : l.SameFrom l' symbol) (src : Source) (n : Nat) (path : Path)
    {p : Nat} (hp : p ≤ src.size) :
    (l.scope src n).production symbol path p = (l'.scope src n).production symbol path p := by
  have hmirrors := (h.agreeOn src).scope_mirrors (.refl src) n symbol .refl path path p rfl
  apply hmirrors.eq_of_zero
  intro f hf
  rw [Nat.add_zero] at hf
  rcases l.scope_backtracks src n symbol path hp with hr | hr <;> rw [hf] at hr <;> cases hr

end Language

/-! ## Leaving out productions -/

namespace Grammar

variable {g : Grammar} {rs : List Production}

/-- The productions of the symbols that the analysis reaches from the root. -/
def reached (g : Grammar) : List Production :=
  g.productions.filter fun r => decide (r.symbol ∈ g.reachable)

theorem nodup_symbols_of_perm_reached (hdistinct : g.symbols.Nodup) (hperm : rs.Perm g.reached) :
    (symbols ⟨g.root, rs⟩).Nodup :=
  (hperm.map Production.symbol).nodup_iff.mpr
    (hdistinct.sublist (List.filter_sublist.map Production.symbol))

/-- What is found for a symbol that is reached is what was found for it. -/
theorem find?_of_perm_reached (hdistinct : g.symbols.Nodup) (hperm : rs.Perm g.reached) {s : String}
    (hs : s ∈ g.symbols → s ∈ g.reachable) : find? ⟨g.root, rs⟩ s = g.find? s := by
  apply Option.ext
  intro r
  rw [find?_eq_some_iff (nodup_symbols_of_perm_reached hdistinct hperm),
    find?_eq_some_iff hdistinct]
  show r ∈ rs ∧ _ ↔ _
  rw [hperm.mem_iff, reached, List.mem_filter, decide_eq_true_eq]
  constructor
  · rintro ⟨⟨hr, -⟩, rfl⟩
    exact ⟨hr, rfl⟩
  · rintro ⟨hr, rfl⟩
    exact ⟨⟨hr, hs (List.mem_map_of_mem hr)⟩, rfl⟩

/-- Chains of references from the root lead to symbols that are reached, or that have no
production. -/
theorem mem_reachable_of_chain {s : String} (h : Relation.ReflTransGen g.RefersTo g.root s)
    (hs : s ∈ g.symbols) : s ∈ g.reachable := by
  refine mem_reachable_iff.mpr ⟨?_, hs, h⟩
  rcases Relation.ReflTransGen.cases_head h with rfl | ⟨t, ⟨r, hr, -⟩, -⟩
  · exact hs
  · exact g.defines_iff.mp (Option.isSome_of_eq_some hr)

/-- Of a valid grammar all is kept, and nothing in it depends on the order. -/
theorem Valid.of_perm_reached (h : g.Valid) (hperm : rs.Perm g.reached) : Valid ⟨g.root, rs⟩ := by
  have hreachable {s : String} (hs : s ∈ g.symbols) : s ∈ g.reachable :=
    mem_reachable_of_chain (h.reached s hs) hs
  have hfind : find? ⟨g.root, rs⟩ = g.find? :=
    funext fun s => find?_of_perm_reached h.distinct hperm hreachable
  constructor
  case distinct => exact nodup_symbols_of_perm_reached h.distinct hperm
  case rooted => exact (mem_symbols_congr hfind).mpr h.rooted
  case closed =>
    intro r hr s hs
    have hr : r ∈ g.productions := List.mem_of_mem_filter (hperm.mem_iff.mp hr)
    exact (mem_symbols_congr hfind).mpr (h.closed r hr s hs)
  case reached =>
    intro s hs
    rw [refersTo_congr hfind]
    exact h.reached s ((mem_symbols_congr hfind).mp hs)
  case productive =>
    intro s hs
    rw [Productive, least_congr hfind]
    exact h.productive s ((mem_symbols_congr hfind).mp hs)
  case guarded =>
    rw [opensWith_congr hfind]
    exact h.guarded

end Grammar

namespace Language

/-- A symbol with the same productions from it on comes to the same reply. -/
theorem SameFrom.fullScope_eq {root root' : String} {productions productions' : List Production}
    {l l' : Language} {symbol : String} (h : l.SameFrom l' symbol)
    (hbuild : Grammar.build root productions = .ok l.grammar)
    (hbuild' : Grammar.build root' productions' = .ok l'.grammar) {src : Source} (path : Path)
    {p : Nat} (hp : p ≤ src.size) :
    (l.fullScope src).production symbol path p = (l'.fullScope src).production symbol path p := by
  -- a stage at which both are finished
  have hstage := h.scope_eq src (max (l.stage src) (l'.stage src)) path hp
  rw [production_fullScope_of_stage_le hbuild (Nat.le_max_left _ _) _ _ hp,
    production_fullScope_of_stage_le hbuild' (Nat.le_max_right _ _) _ _ hp] at hstage
  exact hstage

theorem sameFrom_root {g : Grammar} {rs : List Production} (hdistinct : g.symbols.Nodup)
    (hperm : rs.Perm g.reached) (validators : String → Option Validator) :
    SameFrom ⟨g, validators⟩ ⟨⟨g.root, rs⟩, validators⟩ g.root := by
  intro s hs
  have hfind := Grammar.find?_of_perm_reached hdistinct hperm (Grammar.mem_reachable_of_chain hs)
  simp only [SameProduction, hfind]
  cases g.find? s with
  | none => exact .none
  | some r => exact .some ⟨rfl, rfl⟩

/-- The larger grammar has more stages than the other one needs. -/
theorem stage_le_of_perm_reached {g : Grammar} {rs : List Production} (hperm : rs.Perm g.reached)
    (validators : String → Option Validator) (src : Source) :
    stage ⟨⟨g.root, rs⟩, validators⟩ src ≤ stage ⟨g, validators⟩ src := by
  have hlength : rs.length ≤ g.productions.length :=
    hperm.length_eq ▸ List.length_filter_le _ _
  exact Nat.mul_le_mul_right _ (Nat.succ_le_succ hlength)

end Language

/-- **Unreachable productions.** Let two languages, of grammars without violations, have
the same rule and the same validator for every symbol that chains of references lead to
from a given one. Then from any position of any input this symbol is recognized alike in
both: with the same node or the same diagnosis, and with the cursor left at the same
place. In particular, take a grammar in which no symbol is defined twice and keep those
productions that the analysis reaches from the root, in any order. At every stage the
reply for the root is as before; if what is kept has no violations, every text is
recognized as before; and if the grammar had none, what is kept has none. -/
theorem unreachable_is_dead :
    (∀ {root root' : String} {productions productions' : List Production} {l l' : Language}
        {symbol : String}, Grammar.build root productions = .ok l.grammar →
      Grammar.build root' productions' = .ok l'.grammar → l.SameFrom l' symbol →
      ∀ (src : Source) {p : Nat}, p ≤ src.size →
        l.recognizeAt src symbol p = l'.recognizeAt src symbol p ∧
          ∀ path, l.recognizeBelow src symbol path p = l'.recognizeBelow src symbol path p) ∧
    ∀ {g : Grammar} {rs : List Production} (validators : String → Option Validator),
      g.symbols.Nodup → rs.Perm g.reached →
        (∀ (src : Source) n path p, p ≤ src.size →
          (Language.scope ⟨g, validators⟩ src n).production g.root path p =
            (Language.scope ⟨⟨g.root, rs⟩, validators⟩ src n).production g.root path p) ∧
        (Grammar.build g.root rs = .ok ⟨g.root, rs⟩ →
          ∀ text, Language.recognizeRoot ⟨g, validators⟩ text =
            Language.recognizeRoot ⟨⟨g.root, rs⟩, validators⟩ text) ∧
        (Grammar.build g.root g.productions = .ok g →
          Grammar.build g.root rs = .ok ⟨g.root, rs⟩) := by
  constructor
  · intro root root' productions productions' l l' symbol hbuild hbuild' hsame src p hp
    exact ⟨hsame.fullScope_eq hbuild hbuild' _ hp,
      fun path => hsame.fullScope_eq hbuild hbuild' _ hp⟩
  · intro g rs validators hdistinct hperm
    have hsame : Language.SameFrom ⟨g, validators⟩ ⟨⟨g.root, rs⟩, validators⟩ g.root :=
      Language.sameFrom_root hdistinct hperm validators
    refine ⟨fun src n path p hp => hsame.scope_eq src n path hp, fun hbuild text => ?_,
      fun hbuild => ?_⟩
    · have hstage := hsame.scope_eq (Source.ofString text)
        (Language.stage ⟨g, validators⟩ (Source.ofString text)) (.root g.root) (Nat.zero_le _)
      rw [Language.production_fullScope_of_stage_le (l := ⟨⟨g.root, rs⟩, validators⟩) hbuild
        (Language.stage_le_of_perm_reached hperm validators _) _ _ (Nat.zero_le _)] at hstage
      exact hstage
    · have hvalid := (Grammar.valid_of_build hbuild).of_perm_reached hperm
      exact hvalid.build

/-- Pairs, with the steps they are taken from left in the grammar. -/
def pairGrammar : Grammar := ⟨"pair", stepLanguage.grammar.productions⟩

/-- A pair does not refer to the steps, so a limit on them does not matter to it. -/
theorem fewSteps_sameFrom_pair : fewSteps.SameFrom stepLanguage "pair" := by
  intro s hs
  have hnone (t : String) : ¬ fewSteps.grammar.RefersTo "pair" t := by
    rintro ⟨r, hr, hmentions⟩
    obtain rfl : _ = r := Option.some.inj hr
    have hreferences := (Rule.mem_references_iff _).mpr hmentions
    cases hreferences
  rcases Relation.ReflTransGen.cases_head hs with rfl | ⟨t, ht, -⟩
  · exact .some ⟨rfl, rfl⟩
  · exact absurd ht (hnone t)

theorem unreachable_is_dead_pair :
    Grammar.build "steps" fewSteps.grammar.productions = .ok fewSteps.grammar ∧
      Grammar.build "steps" stepLanguage.grammar.productions = .ok stepLanguage.grammar ∧
      fewSteps.SameFrom stepLanguage "pair" ∧ 2 ≤ (Source.ofString "aba").size ∧
      fewSteps.recognizeAt (Source.ofString "aba") "pair" 2 =
        stepLanguage.recognizeAt (Source.ofString "aba") "pair" 2 ∧
      pairGrammar.symbols.Nodup ∧ (pairGrammar.productions.drop 1).Perm pairGrammar.reached ∧
      Language.recognizeRoot ⟨pairGrammar, fun _ => none⟩ "aba" =
        Language.recognizeRoot ⟨⟨"pair", pairGrammar.productions.drop 1⟩, fun _ => none⟩ "aba" := by
  have hbuild : Grammar.build "steps" fewSteps.grammar.productions = .ok fewSteps.grammar := rfl
  have hbuild' : Grammar.build "steps" stepLanguage.grammar.productions =
    .ok stepLanguage.grammar := rfl
  have hdistinct : pairGrammar.symbols.Nodup := by decide
  have hreached : (pairGrammar.productions.drop 1).Perm pairGrammar.reached := .refl _
  exact ⟨hbuild, hbuild', fewSteps_sameFrom_pair, by decide,
    (unreachable_is_dead.1 hbuild hbuild' fewSteps_sameFrom_pair (Source.ofString "aba")
      (by decide)).1, hdistinct, hreached,
    (unreachable_is_dead.2 (fun _ => none) hdistinct hreached).2.1 rfl "aba"⟩

end ConcreteSyntax
