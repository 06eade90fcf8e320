import ConcreteSyntax.Proofs.Grammar.LeftCalls
import ConcreteSyntax.Proofs.Nullability

/-!
# Recognition terminates

Behind a token that is read every production may be called again; before it, only
those of lower rank. So calls nest no deeper than there are pairs of a position
and a rank, and a stage beyond these numbers finishes whatever is recognized in a
grammar without violations.
-/

namespace ConcreteSyntax

variable {src : Source} {scope : Scope} {path : Path} {p q : Nat}

/-! ## Repetition -/

/-- Every further call starts behind a token more, so no more are needed than
tokens remain. -/
theorem Cardinality.runFrom_ne_unfinished (c : Cardinality) {r : ForestRecognizer}
    (horderly : ForestRecognizer.Orderly src r)
    (hfinished : ∀ m, p ≤ m → m ≤ src.size → r path m ≠ .unfinished) :
    ∀ {bound done q : Nat}, p ≤ q → q ≤ src.size → src.size < q + bound →
      c.runFrom (fun _ => r path) bound done q ≠ .unfinished := by
  intro bound
  induction bound with
  | zero =>
      intro done q _ hq hbound
      exact absurd hq (Nat.not_le_of_lt hbound)
  | succ bound ih =>
      intro done q hpq hq hbound
      rw [runFrom]
      by_cases hfull : c.isFull done
      · simp [hfull]
      · simp only [hfull, Bool.false_eq_true, if_false]
        cases hstep : r path q with
        | success f m =>
            obtain ⟨hqm, hm, -⟩ := (horderly path q hq).advances f m hstep
            by_cases hmoved : m = q
            · simp [hmoved]
            · -- one call less is left, and one token less at least
              have hrest := @ih (done + 1) m (by omega) hm (by omega)
              cases hrun : c.runFrom (fun _ => r path) bound (done + 1) m with
              | unfinished => exact absurd hrun hrest
              | _ => simp [hmoved, hrun, Reply.map]
        | failure d m => simp
        | fault f => simp
        | unfinished => exact absurd hstep (hfinished q hpq hq)

/-! ## Groups -/

/-- Elements behind some that can all succeed without a token are called on the
left as well. -/
theorem Element.leftCalls_behind {nullable : String → Bool} {ordered : Bool} {e : Element}
    {post : List Element} : ∀ pre : List Element,
    (ordered = true → ∀ e' ∈ pre, e'.isNullable nullable = true) →
      e.kind.leftCalls nullable ⊆ Element.leftCalls nullable ordered (pre ++ e :: post)
  | [], _ => by
      obtain ⟨kind, cardinality⟩ := e
      rw [List.nil_append, Element.leftCalls]
      exact List.subset_append_left _ _
  | e' :: pre, h => by
      have ih : e.kind.leftCalls nullable ⊆
          Element.leftCalls nullable ordered (pre ++ e :: post) :=
        Element.leftCalls_behind pre fun ho e'' he => h ho e'' (List.mem_cons_of_mem _ he)
      obtain ⟨kind, cardinality⟩ := e'
      rw [List.cons_append, Element.leftCalls]
      have hskip : (ordered && !(Element.mk kind cardinality).isNullable nullable) = false := by
        cases ordered with
        | false => rfl
        | true => simp [h rfl _ List.mem_cons_self]
      rw [hskip]
      exact List.Subset.trans ih (List.subset_append_right _ _)

/-- All that a recognizer entered at `p` needs for an answer, if `calls` are the
productions it calls before it has read a token. -/
structure Ready (scope : Scope) (p : Nat) (calls : List String) : Prop where
  inside : p ≤ scope.source.size
  roomy : scope.source.size < p + scope.bound
  here : ∀ s ∈ calls, ∀ path, scope.production s path p ≠ .unfinished
  behind : ∀ s path q, p < q → q ≤ scope.source.size → scope.production s path q ≠ .unfinished

theorem Ready.mono {calls calls' : List String} (h : Ready scope p calls) (hsub : calls' ⊆ calls) :
    Ready scope p calls' :=
  ⟨h.inside, h.roomy, fun s hs => h.here s (hsub hs), h.behind⟩

/-- Behind a token anything may be called. -/
theorem Ready.later {calls : List String} (h : Ready scope p calls) (calls' : List String)
    (hpq : p < q) (hq : q ≤ scope.source.size) : Ready scope q calls' where
  inside := hq
  roomy := by
    have := h.roomy
    omega
  here := fun s _ path => h.behind s path q hpq hq
  behind := fun s path m hqm hm => h.behind s path m (Nat.lt_trans hpq hqm) hm

theorem Ready.from {calls calls' : List String} (h : Ready scope p calls) (hsub : calls' ⊆ calls)
    (hpq : p ≤ q) (hq : q ≤ scope.source.size) : Ready scope q calls' := by
  rcases Nat.eq_or_lt_of_le hpq with rfl | hlt
  · exact h.mono hsub
  · exact h.later _ hlt hq

section

variable {nullable : String → Bool} {elements : List Element}
variable (horderly : ∀ symbol, NodeRecognizer.Orderly scope.source (scope.production symbol))
variable (hidle : ∀ symbol, Recognizer.IdleOnlyIf (nullable symbol) scope.source
  (scope.production symbol))

include horderly hidle

/-- In a sequence the elements before the one that decides have succeeded, and if
they read nothing they are nullable. -/
theorem sequence_finishes (helements : ∀ e ∈ elements, ∀ m,
      Ready scope m (e.kind.leftCalls nullable) → ∀ path, e.recognizer scope path m ≠ .unfinished)
    (hready : Ready scope p (Element.leftCalls nullable true elements)) :
    sequence scope.source (elements.map (Element.recognizer scope)) path p ≠ .unfinished := by
  have horder := (Kind.recognizer_orderly horderly).2
  have hp := hready.inside
  unfold sequence
  rcases sequenceFrom_cases path 0 (elements.map (Element.recognizer scope)) p with
    ⟨ns, q, -, hr⟩ | ⟨pre, r, post, ns, m, hsplit, hrun, -, hr⟩ <;> rw [hr]
  · simp
  · obtain ⟨before, e, behind, rfl, rfl, rfl⟩ := map_eq_append_cons hsplit
    have hbefore : ∀ r ∈ before.map (Element.recognizer scope),
        ForestRecognizer.Orderly scope.source r :=
      List.forall_mem_map.mpr fun e' _ => horder e'
    obtain ⟨hpm, hm, -⟩ := hrun.bounds hbefore hp
    have hnext : Ready scope m (e.kind.leftCalls nullable) := by
      rcases Nat.eq_or_lt_of_le hpm with rfl | hlt
      · -- nothing is read before `e`, so `e` is called on the left
        apply hready.mono
        apply Element.leftCalls_behind before
        intro _ e' he'
        obtain ⟨f, hf⟩ := hrun.idle hbefore hp rfl _ (List.mem_map_of_mem he')
        exact (Kind.idleOnlyIf horderly hidle).2 e' path p f hp hf
      · exact hready.later _ hlt hm
    have hfinished := helements e (by simp) m hnext path
    simpa using hfinished

omit hidle in
theorem choice_finishes (helements : ∀ e ∈ elements, ∀ m,
      Ready scope m (e.kind.leftCalls nullable) → ∀ path, e.recognizer scope path m ≠ .unfinished)
    (hready : Ready scope p (Element.leftCalls nullable false elements)) :
    choice (elements.map (Element.recognizer scope)) path p ≠ .unfinished := by
  have horder := (Kind.recognizer_orderly horderly).2
  unfold choice
  rcases choiceAfter_cases path none (elements.map (Element.recognizer scope)) p (by simp) with
    ⟨pre, r, post, m, hsplit, hpre, -, hr⟩ | ⟨d, q, -, -, -, hr⟩ <;> rw [hr]
  · obtain ⟨before, e, behind, rfl, rfl, rfl⟩ := map_eq_append_cons hsplit
    obtain rfl : m = p :=
      hpre.stays (List.forall_mem_map.mpr fun e' _ => horder e') hready.inside
    exact helements e (by simp) m
      (hready.mono (Element.leftCalls_behind before (by simp))) path
  · simp

omit hidle in
theorem anyOrder_finishes (required : Nat) (helements : ∀ e ∈ elements, ∀ m,
      Ready scope m (e.kind.leftCalls nullable) → ∀ path, e.recognizer scope path m ≠ .unfinished)
    (hready : Ready scope p (Element.leftCalls nullable false elements)) :
    anyOrder scope.source (Element.members scope elements) required path p ≠ .unfinished := by
  have horder := (Kind.recognizer_orderly horderly).2
  rcases anyOrder_cases required path (members_orderly fun e (_ : e ∈ elements) => horder e)
    hready.inside with ⟨order, rest, ns, q, -, -, -, hr⟩ | ⟨d, hr⟩ | ⟨-, m, hm, q, hpq, hq, hrun⟩
  · simp [hr]
  · simp [hr]
  · rw [Element.members_eq_map] at hm
    obtain ⟨e, he, rfl⟩ := List.mem_map.mp hm
    obtain ⟨before, after, rfl⟩ := List.mem_iff_append.mp he
    exact absurd hrun (helements e he q
      (hready.from (Element.leftCalls_behind before (by simp)) hpq hq) path)

/-! ## Rules -/

/-- **Elements finish.** A kind or an element that is called with all it needs has
an answer. -/
theorem Kind.finishes :
    (∀ k : Kind, ∀ p, Ready scope p (k.leftCalls nullable) →
        ∀ path, k.recognizer scope path p ≠ .unfinished) ∧
      ∀ e : Element, ∀ p, Ready scope p (e.kind.leftCalls nullable) →
        ∀ path, e.recognizer scope path p ≠ .unfinished := by
  have hkinds := (Kind.recognizer_orderly horderly).1
  apply Kind.induction
  · intro symbol p hready path
    have hfinished := hready.here symbol (by simp [Kind.leftCalls]) (path.child symbol)
    simpa [Kind.recognizer] using hfinished
  · intro rule p hready path
    rcases rule.recognize_answers (path.child rule.inlineSymbol) hready.inside with
      ⟨seg, q, -, hr⟩ | ⟨d, hr⟩ <;> simp [Kind.recognizer, hr]
  · intro aggregation elements helements p hready path
    rw [Kind.recognizer]
    cases aggregation with
    | sequence =>
        simp only [Aggregation.recognizer, Element.map_recognizer_members]
        exact sequence_finishes horderly hidle helements hready
    | choice =>
        simp only [Aggregation.recognizer, Element.map_recognizer_members]
        exact choice_finishes horderly helements hready
    | set minimum => exact anyOrder_finishes horderly _ helements hready
  · intro kind cardinality hkind p hready path
    rw [Element.recognizer_mk]
    rcases cardinality.repeating_cases scope.source scope.bound (fun _ => kind.recognizer scope)
      path p with ⟨run, q, -, -, hr⟩ | ⟨run, q, d, -, -, -, hr⟩ | ⟨f, -, hr⟩ | ⟨hrun, -⟩
    · simp [hr]
    · simp [hr]
    · simp [hr]
    · have hfinished : ∀ m, p ≤ m → m ≤ scope.source.size →
          kind.recognizer scope path m ≠ .unfinished := by
        intro m hpm hm
        have hlater := hready.from (List.Subset.refl _) hpm hm
        exact hkind m hlater path
      exact absurd hrun (cardinality.runFrom_ne_unfinished (hkinds kind) hfinished
        (Nat.le_refl p) hready.inside hready.roomy)

theorem Rule.finishes (r : Rule) (hready : Ready scope p (r.leftCalls nullable)) (path : Path) :
    r.recognizer scope path p ≠ .unfinished := by
  cases r with
  | terminal rule =>
      rw [Rule.recognizer]
      rcases rule.recognize_answers path hready.inside with ⟨seg, q, -, hr⟩ | ⟨d, hr⟩ <;> simp [hr]
  | composite r =>
      rw [Rule.recognizer]
      rcases r.recognizer_cases path (r.group.recognizer_orderly horderly) hready.inside with
        ⟨f, q, -, hr⟩ | ⟨d, -, hr⟩ | ⟨hrun, -⟩
      · simp [hr]
      · simp [hr]
      · rw [← Group.recognizer_toKind] at hrun
        exact absurd hrun ((Kind.finishes horderly hidle).1 _ p hready path)

theorem Production.finishes (r : Production) (fallback : Option Validator)
    (hready : Ready scope p (r.rule.leftCalls nullable)) (path : Path) :
    r.recognizer fallback scope path p ≠ .unfinished := by
  rcases r.recognizer_cases fallback path (r.rule.recognizer_orderly horderly) hready.inside with
    ⟨n, q, -, -, hr⟩ | ⟨n, q, d, -, -, hr⟩ | ⟨d, -, hr⟩ | ⟨hrun, -⟩
  · simp [hr]
  · simp [hr]
  · simp [hr]
  · exact absurd hrun (r.rule.finishes horderly hidle hready path)

end

/-! ## Languages -/

namespace Language

variable {l : Language} {src : Source}

/-- A stage at which the production is finished at a position: all productions may
be called at each position behind it, and at the position itself those of lower
rank. -/
def deadline (l : Language) (src : Source) (symbol : String) (p : Nat) : Nat :=
  (src.size - p) * (l.grammar.productions.length + 1) + l.grammar.leftRank symbol + 2

theorem deadline_lt_of_lt (l : Language) (symbol symbol' : String) (hpq : p < q) (hq : q ≤ src.size) :
    l.deadline src symbol' q < l.deadline src symbol p := by
  have hrank := l.grammar.leftRank_le symbol'
  have hmul : (src.size - q + 1) * (l.grammar.productions.length + 1) ≤
      (src.size - p) * (l.grammar.productions.length + 1) :=
    Nat.mul_le_mul_right _ (by omega)
  rw [Nat.succ_mul] at hmul
  unfold deadline
  omega

theorem deadline_lt_of_leftCalls (src : Source) (p : Nat) (hrec : l.grammar.leftRecursive = [])
    {symbol symbol' : String} (h : l.grammar.LeftCalls symbol symbol') :
    l.deadline src symbol' p < l.deadline src symbol p := by
  have hrank := Grammar.leftRank_lt hrec h
  unfold deadline
  omega

theorem size_lt_deadline (l : Language) (src : Source) (symbol : String) (p : Nat) :
    src.size + 1 < p + l.deadline src symbol p := by
  have hmul : src.size - p ≤ (src.size - p) * (l.grammar.productions.length + 1) :=
    Nat.le_mul_of_pos_right _ (Nat.succ_pos _)
  unfold deadline
  omega

theorem deadline_le_stage (l : Language) (src : Source) (symbol : String) (p : Nat) :
    l.deadline src symbol p ≤ l.stage src := by
  have hrank := l.grammar.leftRank_le symbol
  have hmul : (src.size - p) * (l.grammar.productions.length + 1) ≤
      src.size * (l.grammar.productions.length + 1) :=
    Nat.mul_le_mul_right _ (Nat.sub_le _ _)
  unfold deadline stage
  rw [Nat.mul_comm _ (src.size + 2), Nat.add_mul]
  omega

theorem size_lt_stage (l : Language) (src : Source) : src.size < l.stage src := by
  have h₁ := l.size_lt_deadline src l.grammar.root 0
  have h₂ := l.deadline_le_stage src l.grammar.root 0
  omega

/-- A symbol without a production fails at the first stage already. -/
theorem scope_ne_unfinished_of_not_defines {n : Nat} {symbol : String}
    (h : l.grammar.defines symbol = false) (path : Path) (p : Nat) :
    (l.scope src (n + 1)).production symbol path p ≠ .unfinished := by
  rw [scope_production_succ, production]
  cases hfind : l.grammar.find? symbol with
  | some r => simp [Grammar.defines, hfind] at h
  | none => simp

/-- **Productions finish.** At its deadline a production has an answer. -/
theorem scope_finishes (hrec : l.grammar.leftRecursive = []) (n : Nat) : ∀ symbol path p,
    p ≤ src.size → l.deadline src symbol p ≤ n →
      (l.scope src n).production symbol path p ≠ .unfinished := by
  induction n with
  | zero =>
      intro symbol path p _ hn
      exact absurd hn (by unfold deadline; omega)
  | succ n ih =>
      intro symbol path p hp hn
      rw [scope_production_succ, production]
      cases hfind : l.grammar.find? symbol with
      | none => simp
      | some r =>
          -- whatever the rule calls has an earlier deadline
          refine r.finishes (l.scope_orderly src n) (l.scope_idleOnlyIf src n) _
            ⟨by simpa using hp, ?_, fun s hs path => ?_, fun s path q hpq hq => ?_⟩ path
          · have := l.size_lt_deadline src symbol p
            simp only [scope_source, scope_bound]
            omega
          · cases hdefined : l.grammar.defines s with
            | true =>
                have hcall : l.grammar.LeftCalls symbol s := by
                  unfold Grammar.LeftCalls Grammar.Leads Grammar.successors
                  rw [hfind]
                  exact List.mem_filter.mpr ⟨hs, hdefined⟩
                have hlt := deadline_lt_of_leftCalls src p hrec hcall
                exact ih s path p hp (by omega)
            | false =>
                obtain ⟨m, rfl⟩ : ∃ m, n = m + 1 :=
                  Nat.exists_eq_add_one_of_ne_zero (by unfold deadline at hn; omega)
                exact scope_ne_unfinished_of_not_defines hdefined path p
          · rw [scope_source] at hq
            have hlt := l.deadline_lt_of_lt symbol s hpq hq
            exact ih s path q hq (by omega)

/-- At a stage beyond all deadlines everything can be called. -/
theorem ready_of_stage_le (hrec : l.grammar.leftRecursive = []) {n : Nat} (hn : l.stage src ≤ n)
    (hp : p ≤ src.size) (calls : List String) : Ready (l.scope src n) p calls where
  inside := by simpa using hp
  roomy := by
    have hsize := l.size_lt_stage src
    simp only [scope_source, scope_bound]
    omega
  here := fun s _ path =>
    scope_finishes hrec n s path p hp (Nat.le_trans (l.deadline_le_stage src s p) hn)
  behind := fun s path q _ hq =>
    scope_finishes hrec n s path q (by simpa using hq)
      (Nat.le_trans (l.deadline_le_stage src s q) hn)

end Language

/-! ## Runs under growing bounds -/

/-- The runs come to a reply: they are unfinished or give this reply, and from
`bound` on they give it. -/
structure ComesTo {ε α : Type} (run : Nat → Reply ε α) (bound : Nat) (r : Reply ε α) : Prop where
  finished : r ≠ .unfinished
  before : ∀ n, run n = .unfinished ∨ run n = r
  after : ∀ n, bound ≤ n → run n = r

theorem ComesTo.of_mono {ε α : Type} {run : Nat → Reply ε α} {bound : Nat} (hrun : Monotone run)
    (hbound : run bound ≠ .unfinished) : ComesTo run bound (run bound) where
  finished := hbound
  before n := by
    rcases Nat.le_total n bound with hn | hn
    · exact hrun hn
    · exact Or.inr (Reply.eq_of_le (hrun hn) hbound)
  after _ hn := Reply.eq_of_le (hrun hn) hbound

/-- At a stage everything entered at a position has an answer. -/
structure Language.Finishes (l : Language) (src : Source) (n p : Nat) : Prop where
  symbol : ∀ symbol path, (l.scope src n).production symbol path p ≠ .unfinished
  production : ∀ (r : Production) (fallback : Option Validator) path,
    r.recognizer fallback (l.scope src n) path p ≠ .unfinished
  rule : ∀ (r : Rule) path, r.recognizer (l.scope src n) path p ≠ .unfinished
  element : ∀ (e : Element) path, e.recognizer (l.scope src n) path p ≠ .unfinished
  kind : ∀ (k : Kind) path, k.recognizer (l.scope src n) path p ≠ .unfinished
  group : ∀ (g : Group) path, g.recognizer (l.scope src n) path p ≠ .unfinished

theorem Language.finishes_of_stage_le {root : String} {productions : List Production} {l : Language}
    (hbuild : Grammar.build root productions = .ok l.grammar) {src : Source} {n p : Nat}
    (hn : l.stage src ≤ n) (hp : p ≤ src.size) : l.Finishes src n p := by
  have hrec := Grammar.leftRecursive_eq_nil_of_build hbuild
  have hready (calls : List String) : Ready (l.scope src n) p calls :=
    ready_of_stage_le hrec hn hp calls
  have horderly := l.scope_orderly src n
  have hidle := l.scope_idleOnlyIf src n
  obtain ⟨hkinds, helements⟩ := Kind.finishes horderly hidle
  constructor
  · intro symbol
    exact (hready [symbol]).here symbol List.mem_cons_self
  · intro r fallback
    exact r.finishes horderly hidle fallback (hready _)
  · intro r
    exact r.finishes horderly hidle (hready _)
  · intro e
    exact helements e p (hready _)
  · intro k
    exact hkinds k p (hready _)
  · intro g
    rw [← Group.recognizer_toKind]
    exact hkinds g.toKind p (hready _)

/-- At the last stage productions are recognized with the productions of this same
stage: one stage more would change nothing. -/
theorem Language.fullScope_production {root : String} {productions : List Production} {l : Language}
    (hbuild : Grammar.build root productions = .ok l.grammar) {src : Source} {p : Nat}
    (hp : p ≤ src.size) (symbol : String) (path : Path) :
    (l.fullScope src).production symbol path p = l.production (l.fullScope src) symbol path p := by
  have hfinishes : l.Finishes src (l.stage src) p :=
    l.finishes_of_stage_le hbuild (Nat.le_refl _) hp
  have hlater := (l.scope_le_succ src (l.stage src)).2.2 symbol path p
  exact (Reply.eq_of_le hlater (hfinishes.symbol symbol path)).symm

/-- **Termination.** In a grammar without violations, whatever validators there are,
the recognition of anything from any position of an input comes to a reply. -/
theorem recognition_terminates {root : String} {productions : List Production} {l : Language}
    (hbuild : Grammar.build root productions = .ok l.grammar) (src : Source) {p : Nat}
    (hp : p ≤ src.size) (path : Path) :
    (∀ symbol, ComesTo (fun n => (l.scope src n).production symbol (.root symbol) p)
        (l.stage src) (l.recognizeAt src symbol p)) ∧
      (∀ symbol, ComesTo (fun n => (l.scope src n).production symbol path p)
        (l.stage src) ((l.fullScope src).production symbol path p)) ∧
      (∀ (r : Production) (fallback : Option Validator),
        ComesTo (fun n => r.recognizer fallback (l.scope src n) path p)
          (l.stage src) (r.recognizer fallback (l.fullScope src) path p)) ∧
      (∀ r : Rule, ComesTo (fun n => r.recognizer (l.scope src n) path p)
        (l.stage src) (r.recognizer (l.fullScope src) path p)) ∧
      (∀ e : Element, ComesTo (fun n => e.recognizer (l.scope src n) path p)
        (l.stage src) (e.recognizer (l.fullScope src) path p)) ∧
      (∀ k : Kind, ComesTo (fun n => k.recognizer (l.scope src n) path p)
        (l.stage src) (k.recognizer (l.fullScope src) path p)) ∧
      ∀ g : Group, ComesTo (fun n => g.recognizer (l.scope src n) path p)
        (l.stage src) (g.recognizer (l.fullScope src) path p) := by
  have hfinishes : l.Finishes src (l.stage src) p := l.finishes_of_stage_le hbuild (Nat.le_refl _) hp
  have hmono {n m : Nat} (h : n ≤ m) : l.scope src n ≤ l.scope src m := l.scope_mono src h
  have production (symbol : String) (path : Path) :
      ComesTo (fun n => (l.scope src n).production symbol path p)
        (l.stage src) ((l.fullScope src).production symbol path p) :=
    .of_mono (fun _ _ h => (hmono h).2.2 symbol path p) (hfinishes.symbol symbol path)
  refine ⟨fun symbol => production symbol _, fun symbol => production symbol path,
    fun r fallback => ?_, fun r => ?_, fun e => ?_, fun k => ?_, fun g => ?_⟩
  · exact .of_mono (fun _ _ h => r.recognizer_mono (hmono h) fallback path p)
      (hfinishes.production r fallback path)
  · exact .of_mono (fun _ _ h => r.recognizer_mono (hmono h) path p) (hfinishes.rule r path)
  · exact .of_mono (fun _ _ h => (Kind.recognizer_mono (hmono h)).2 e path p)
      (hfinishes.element e path)
  · exact .of_mono (fun _ _ h => (Kind.recognizer_mono (hmono h)).1 k path p)
      (hfinishes.kind k path)
  · exact .of_mono (fun _ _ h => g.recognizer_mono (hmono h) path p) (hfinishes.group g path)

/-- A single character, as it is. -/
def Kind.character (c : Char) : Kind := .terminal (.literal ⟨[c], true, by simp⟩)

/-- Lists of letters and of lists in parentheses. Both a list and an item may be
called where the list begins, behind spaces that need not be there. -/
def lists : List Production :=
  [ ⟨"list", .composite ⟨⟨.sequence,
      [.mk (.reference "space") .zeroOrMore, .mk (.reference "item") .oneOrMore]⟩, none⟩, none⟩,
    ⟨"item", .composite ⟨⟨.choice,
      [.mk (.character 'a') .once,
        .mk (.group .sequence [.mk (.character '(') .once, .mk (.reference "list") .optional,
          .mk (.character ')') .once]) .once]⟩, none⟩, none⟩,
    ⟨"space", .terminal (.literal ⟨[' '], true, by simp⟩), none⟩ ]

/-- The language of lists. -/
def listLanguage : Language := .ofGrammar ⟨"list", lists⟩

theorem build_lists : Grammar.build "list" lists = .ok listLanguage.grammar := rfl

/-- Spaces read nothing here, and then an item is called where the list began. -/
theorem recognition_terminates_lists :
    Grammar.build "list" lists = .ok listLanguage.grammar ∧ 1 ≤ (Source.ofString "(a a)").size ∧
      ComesTo (fun n => (listLanguage.scope (Source.ofString "(a a)") n).production "list"
          (.root "list") 1)
        (listLanguage.stage (Source.ofString "(a a)"))
        (listLanguage.recognizeAt (Source.ofString "(a a)") "list" 1) :=
  ⟨build_lists, by decide,
    (recognition_terminates build_lists _ (by decide) (.root "list")).1 "list"⟩

end ConcreteSyntax
