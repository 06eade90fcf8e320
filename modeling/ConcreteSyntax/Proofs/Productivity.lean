import ConcreteSyntax.Proofs.Derivation
import ConcreteSyntax.Proofs.Grammar.Validity

/-!
# What is not productive recognizes nothing

A node that comes of a rule shows how the rule can succeed, and every production named in
it has a node of its own below. So by induction on derivations the rule has all it needs
in the least set of symbols that the analysis looks for. Runs are not looked at again:
whatever a run recognizes, at whatever stage and in whatever grammar, is derived.
-/

namespace ConcreteSyntax

/-- A set that was satisfied can be: those of its elements that were taken can succeed, and
so can those that may be absent. -/
theorem Kind.Productive.of_split {known : String → Prop} {minimum : Option Nat}
    {es taken untaken : List Element} (split : (taken ++ untaken).Perm es)
    (htaken : ∀ e ∈ taken, e.Productive known)
    (enough : Group.requirement minimum es.length ≤
      taken.length + (untaken.filter Element.isOptional).length) :
    Kind.Productive known (.group (.set minimum) es) := by
  classical
  refine .set (List.filter_sublist (p := fun e => decide (e.Productive known))) (by simp) ?_
  have hoptional : ∀ e : Element, e.isOptional = true → decide (e.Productive known) = true := by
    rintro ⟨kind, c⟩ he
    exact decide_eq_true (.optional (beq_iff_eq.mp he))
  have huntaken := (List.monotone_filter_right untaken hoptional).length_le
  have hall := List.filter_eq_self.mpr fun e he => decide_eq_true (htaken e he)
  have hsplit := (split.filter fun e => decide (e.Productive known)).length_eq
  rw [List.filter_append, hall, List.length_append] at hsplit
  omega

/-! ## Derivations -/

section

variable {l : Language} {src : Source}

mutual

/-- **Derivations.** A rule of which a node comes can succeed. -/
theorem Production.Derives.productive : ∀ {r : Production} {n : Node} {p q : Nat},
    r.Derives l src n p q → r.rule.Productive l.grammar.Productive
  | _, _, _, _, .named rule _ => rule.productive

theorem Rule.Derives.productive : ∀ {r : Rule} {name : String} {n : Node} {p q : Nat},
    r.Derives l src name n p q → r.Productive l.grammar.Productive
  | _, _, _, _, _, .atom _ => trivial
  | _, _, _, _, _, .composite group => group.productive

theorem Aggregation.Derives.productive : ∀ {a : Aggregation} {es : List Element} {ns : List Node}
    {p q : Nat}, a.Derives l src es ns p q → (Kind.group a es).Productive l.grammar.Productive
  | _, _, _, _, _, .sequence all => .sequence (elements_productive all)
  | _, _, _, _, _, .choice member one => .choice member one.productive
  | _, _, _, _, _, .set split order enough => .of_split split (taken_productive order) enough

theorem elements_productive : ∀ {es : List Element} {ns : List Node} {p q : Nat},
    Consecutive (· ≤ ·) (Element.Derives l src) es ns p q →
      ∀ e ∈ es, e.Productive l.grammar.Productive
  | _, _, _, _, .nil _ => List.forall_mem_nil _
  | _, _, _, _, .cons first _ others =>
      List.forall_mem_cons.mpr ⟨first.productive, elements_productive others⟩

theorem taken_productive : ∀ {es : List Element} {ns : List Node} {p q : Nat},
    Consecutive (· < ·) (Element.Derives l src) es ns p q →
      ∀ e ∈ es, e.Productive l.grammar.Productive
  | _, _, _, _, .nil _ => List.forall_mem_nil _
  | _, _, _, _, .cons first _ others =>
      List.forall_mem_cons.mpr ⟨first.productive, taken_productive others⟩

/-- Without an occurrence none is required. -/
theorem Element.Derives.productive : ∀ {e : Element} {ns : List Node} {p q : Nat},
    e.Derives l src ns p q → e.Productive l.grammar.Productive
  | _, _, _, _, .counted (n := 0) _ min_le _ => .optional (Nat.le_zero.mp min_le)
  | _, _, _, _, .counted (n := _ + 1) occurrences _ _ =>
      .occurs (occurrences_productive occurrences _ List.mem_cons_self)
  | _, _, _, _, .idle _ last _ => .occurs last.productive

theorem occurrences_productive : ∀ {ks : List Kind} {ns : List Node} {p q : Nat},
    Consecutive (· ≤ ·) (Kind.Derives l src) ks ns p q →
      ∀ k ∈ ks, k.Productive l.grammar.Productive
  | _, _, _, _, .nil _ => List.forall_mem_nil _
  | _, _, _, _, .cons first _ others =>
      List.forall_mem_cons.mpr ⟨first.productive, occurrences_productive others⟩

theorem Kind.Derives.productive : ∀ {k : Kind} {ns : List Node} {p q : Nat},
    k.Derives l src ns p q → k.Productive l.grammar.Productive
  | _, _, _, _, .reference found named =>
      .reference (Grammar.Least.closed Rule.isProductive_decides _ _ found named.productive)
  | _, _, _, _, .terminal _ => .terminal _
  | _, _, _, _, .group inner => inner.productive

end

end

/-! ## Runs -/

section

variable {l : Language} {src : Source} {n p q : Nat} {path : Path} {node : Node}

/-- **Runs.** A rule that is recognized at some stage can succeed. -/
theorem Rule.productive_of_recognizer (r : Rule) (hp : p ≤ src.size)
    (h : r.recognizer (l.scope src n) path p = .success node q) :
    r.Productive l.grammar.Productive :=
  (r.derives_of_recognizer (l.scope_orderly src n) (l.derives_of_scope src n)
    (by simpa using hp) h).productive

theorem Production.productive_of_recognizer {r : Production} {fallback : Option Validator}
    (hfound : l.grammar.find? r.symbol = some r) (hp : p ≤ src.size)
    (h : r.recognizer fallback (l.scope src n) path p = .success node q) :
    l.grammar.Productive r.symbol := by
  obtain ⟨hrule, -⟩ := Production.recognizer_success
    (r.rule.recognizer_orderly (l.scope_orderly src n)) (by simpa using hp) h
  exact Grammar.Least.closed Rule.isProductive_decides _ _ hfound
    (r.rule.productive_of_recognizer hp hrule)

/-- At no stage is a symbol recognized that cannot succeed. -/
theorem Language.productive_of_scope {symbol : String} (hp : p ≤ src.size)
    (h : (l.scope src n).production symbol path p = .success node q) :
    l.grammar.Productive symbol := by
  cases n with
  | zero => cases h
  | succ n =>
      obtain ⟨r, hfound, hrule, -⟩ := scope_success hp h
      exact Grammar.Least.closed Rule.isProductive_decides _ _ hfound
        (r.rule.productive_of_recognizer hp hrule)

end

/-- At no position of the input does the recognizer succeed, whatever the path. -/
def Recognizer.NeverSucceeds {ε α : Type} (src : Source) (r : Recognizer ε α) : Prop :=
  ∀ path p v q, p ≤ src.size → r path p ≠ .success v q

/-- **Useless productions.** In a grammar in which no symbol is defined twice, accepted or
not, whatever validators there are and however deep recognition may go, a production that
is not found to be productive recognizes nothing anywhere. So none that is reported as
never terminating could have recognized something. -/
theorem unproductive_never_recognized {l : Language} (hdistinct : l.grammar.symbols.Nodup)
    (src : Source) (n : Nat) :
    (∀ symbol, symbol ∉ l.grammar.productive →
        Recognizer.NeverSucceeds src ((l.scope src n).production symbol)) ∧
      (∀ r ∈ l.grammar.productions, r.symbol ∉ l.grammar.productive →
        ∀ fallback, Recognizer.NeverSucceeds src (r.recognizer fallback (l.scope src n))) ∧
      ∀ symbols, .nonTerminating symbols ∈
          Grammar.violationsOf l.grammar.root l.grammar.productions →
        ∀ symbol ∈ symbols, Recognizer.NeverSucceeds src ((l.scope src n).production symbol) := by
  refine ⟨?_, ?_, ?_⟩
  · intro symbol hsymbol path p node q hp h
    exact hsymbol ((Grammar.mem_productive_iff hdistinct).mpr (Language.productive_of_scope hp h))
  · intro r hr hsymbol fallback path p node q hp h
    have hfound := (Grammar.find?_eq_some_iff hdistinct).mpr ⟨hr, rfl⟩
    exact hsymbol ((Grammar.mem_productive_iff hdistinct).mpr
      (Production.productive_of_recognizer hfound hp h))
  · intro symbols hreported symbol hsymbol path p node q hp h
    have haccounts := Grammar.violationsOf_accounts l.grammar.root l.grammar.productions
    obtain ⟨-, hproductive, -⟩ := ((haccounts.nonTerminating.exact _ hreported).2 _).mp hsymbol
    exact hproductive (Language.productive_of_scope hp h)

/-- Parentheses within parentheses without an innermost pair, and a bag of these and of
letters, which may hold no letter but not do without the parentheses. -/
def nestLanguage : Language := .ofGrammar ⟨"nest",
  [⟨"nest", .composite ⟨⟨.sequence, [.mk (.character '(') .once, .mk (.reference "nest") .once,
      .mk (.character ')') .once]⟩, none⟩, none⟩,
    ⟨"bag", .composite ⟨⟨.set none, [.mk (.character 'a') .zeroOrMore,
      .mk (.reference "nest") .once]⟩, none⟩, none⟩]⟩

/-- Letters in a bag alone do not make one. -/
theorem unproductive_never_recognized_bag :
    nestLanguage.grammar.symbols.Nodup ∧ "bag" ∉ nestLanguage.grammar.productive ∧
      Violation.nonTerminating ["nest", "bag"] ∈
        Grammar.violationsOf "nest" nestLanguage.grammar.productions ∧
      ∀ n, Recognizer.NeverSucceeds (Source.ofString "aa((")
        ((nestLanguage.scope (Source.ofString "aa((") n).production "bag") := by
  have hdistinct : nestLanguage.grammar.symbols.Nodup := by decide
  have hbag : "bag" ∉ nestLanguage.grammar.productive := by decide
  have hreported : Violation.nonTerminating ["nest", "bag"] ∈
      Grammar.violationsOf "nest" nestLanguage.grammar.productions := by decide
  exact ⟨hdistinct, hbag, hreported, fun n =>
    (unproductive_never_recognized hdistinct _ n).2.2 _ hreported "bag" (by decide)⟩

end ConcreteSyntax
