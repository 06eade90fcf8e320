import ConcreteSyntax.Proofs.Grammar.Closure
import ConcreteSyntax.Proofs.Grammar.Rounds
import Mathlib.Data.List.Nodup

/-!
# Least sets of symbols

What it takes to succeed at all, or to succeed without a token, is said here of a
rule, given the symbols that can. The productions that can are the least set closed
under it: they are in every set of symbols that has the symbol of a rule as soon as
it has enough for the rule. The rounds of the analysis find this set.
-/

namespace ConcreteSyntax

/-! ## Rules that can succeed -/

mutual

/-- One occurrence can succeed on some input, if the productions with the symbols in
`known` can. -/
inductive Kind.Productive (known : String → Prop) : Kind → Prop where
  | reference {symbol : String} (h : known symbol) : Kind.Productive known (.reference symbol)
  | terminal (rule : Terminal) : Kind.Productive known (.terminal rule)
  | sequence {elements : List Element} (all : ∀ e ∈ elements, Element.Productive known e) :
      Kind.Productive known (.group .sequence elements)
  | choice {elements : List Element} {e : Element} (member : e ∈ elements)
      (one : Element.Productive known e) : Kind.Productive known (.group .choice elements)
  | set {minimum : Option Nat} {elements taken : List Element} (among : taken.Sublist elements)
      (each : ∀ e ∈ taken, Element.Productive known e)
      (enough : Group.requirement minimum elements.length ≤ taken.length) :
      Kind.Productive known (.group (.set minimum) elements)

inductive Element.Productive (known : String → Prop) : Element → Prop where
  /-- No occurrence is needed. -/
  | optional {kind : Kind} {c : Cardinality} (none : c.min = 0) :
      Element.Productive known (.mk kind c)
  | occurs {kind : Kind} {c : Cardinality} (once : Kind.Productive known kind) :
      Element.Productive known (.mk kind c)

end

def Rule.Productive (known : String → Prop) : Rule → Prop
  | .terminal _ => True
  | .composite r => r.group.toKind.Productive known

mutual

/-- One occurrence can succeed without a token, if the productions with the symbols in
`known` can. -/
inductive Kind.Nullable (known : String → Prop) : Kind → Prop where
  | reference {symbol : String} (h : known symbol) : Kind.Nullable known (.reference symbol)
  | terminal {rule : Terminal} (empty : rule.isNullable = true) :
      Kind.Nullable known (.terminal rule)
  | sequence {elements : List Element} (all : ∀ e ∈ elements, Element.Nullable known e) :
      Kind.Nullable known (.group .sequence elements)
  | choice {elements : List Element} {e : Element} (member : e ∈ elements)
      (one : Element.Nullable known e) : Kind.Nullable known (.group .choice elements)
  /-- A set takes no element without a token, so those it leaves have to be enough. -/
  | set {minimum : Option Nat} {elements untaken : List Element}
      (among : untaken.Sublist elements) (each : ∀ e ∈ untaken, e.isOptional = true)
      (enough : Group.requirement minimum elements.length ≤ untaken.length) :
      Kind.Nullable known (.group (.set minimum) elements)

inductive Element.Nullable (known : String → Prop) : Element → Prop where
  /-- No occurrence is needed. -/
  | optional {kind : Kind} {c : Cardinality} (none : c.min = 0) :
      Element.Nullable known (.mk kind c)
  | occurs {kind : Kind} {c : Cardinality} (once : Kind.Nullable known kind) :
      Element.Nullable known (.mk kind c)

end

def Rule.Nullable (known : String → Prop) : Rule → Prop
  | .terminal rule => rule.isNullable = true
  | .composite r => r.group.toKind.Nullable known

/-! ## The tests of the analysis -/

theorem le_length_filter_iff {α : Type} {p : α → Bool} {xs : List α} {n : Nat} :
    n ≤ (xs.filter p).length ↔
      ∃ ys : List α, ys.Sublist xs ∧ (∀ y ∈ ys, p y = true) ∧ n ≤ ys.length := by
  constructor
  · intro h
    exact ⟨xs.filter p, List.filter_sublist, fun y hy => (List.mem_filter.mp hy).2, h⟩
  · rintro ⟨ys, hsub, hys, hn⟩
    have hfilter := hsub.filter p
    rw [List.filter_eq_self.mpr hys] at hfilter
    exact Nat.le_trans hn hfilter.length_le

/-- Can an element succeed on some input? -/
def Element.isProductive (productive : String → Bool) (e : Element) : Bool :=
  e.isOptional || e.kind.isProductive productive

theorem Element.productivity_eq_map (productive : String → Bool) (es : List Element) :
    Element.productivity productive es = es.map (Element.isProductive productive) := by
  induction es with
  | nil => rfl
  | cons e rest ih =>
      obtain ⟨kind, cardinality⟩ := e
      rw [Element.productivity, ih]
      rfl

theorem Kind.isProductive_iff {productive : String → Bool} :
    (∀ k : Kind, k.isProductive productive = true ↔ k.Productive fun s => productive s = true) ∧
      ∀ e : Element, e.isProductive productive = true ↔
        e.Productive fun s => productive s = true := by
  apply Kind.induction
  · intro symbol
    rw [Kind.isProductive]
    exact ⟨fun h => .reference h, fun | .reference h => h⟩
  · intro rule
    rw [Kind.isProductive]
    exact ⟨fun _ => .terminal rule, fun _ => rfl⟩
  · intro aggregation elements ih
    rw [Kind.isProductive, Element.productivity_eq_map]
    cases aggregation with
    | sequence =>
        simp only [Aggregation.isProductive, List.all_map, List.all_eq_true, Function.comp, id_eq]
        exact ⟨fun h => .sequence fun e he => (ih e he).mp (h e he),
          fun | .sequence all => fun e he => (ih e he).mpr (all e he)⟩
    | choice =>
        simp only [Aggregation.isProductive, List.any_map, List.any_eq_true, Function.comp, id_eq]
        exact ⟨fun ⟨e, he, h⟩ => .choice he ((ih e he).mp h),
          fun | .choice he h => ⟨_, he, (ih _ he).mpr h⟩⟩
    | set minimum =>
        simp only [Aggregation.isProductive, List.filter_map, List.length_map,
          Function.id_comp, decide_eq_true_eq, le_length_filter_iff]
        constructor
        · rintro ⟨taken, among, each, enough⟩
          exact .set among (fun e he => (ih e (among.subset he)).mp (each e he)) enough
        · intro h
          cases h with
          | set among each enough =>
              exact ⟨_, among, fun e he => (ih e (among.subset he)).mpr (each e he), enough⟩
  · intro kind cardinality ih
    simp only [Element.isProductive, Element.isOptional, Bool.or_eq_true, beq_iff_eq]
    constructor
    · rintro (hnone | honce)
      · exact .optional hnone
      · exact .occurs (ih.mp honce)
    · rintro (hnone | honce)
      · exact Or.inl hnone
      · exact Or.inr (ih.mpr honce)

theorem Kind.isNullable_iff {nullable : String → Bool} :
    (∀ k : Kind, k.isNullable nullable = true ↔ k.Nullable fun s => nullable s = true) ∧
      ∀ e : Element, e.isNullable nullable = true ↔ e.Nullable fun s => nullable s = true := by
  apply Kind.induction
  · intro symbol
    rw [Kind.isNullable]
    constructor
    · intro h
      exact .reference h
    · intro h
      cases h with
      | reference hsymbol => exact hsymbol
  · intro rule
    rw [Kind.isNullable]
    constructor
    · exact .terminal
    · intro h
      cases h with
      | terminal empty => exact empty
  · intro aggregation elements ih
    rw [Kind.isNullable, Element.nullability_eq_map]
    cases aggregation with
    | sequence =>
        simp only [Aggregation.isNullable, List.all_map, List.all_eq_true, Function.comp, id_eq]
        constructor
        · intro h
          exact .sequence fun e he => (ih e he).mp (h e he)
        · intro h
          cases h with
          | sequence all => exact fun e he => (ih e he).mpr (all e he)
    | choice =>
        simp only [Aggregation.isNullable, List.any_map, List.any_eq_true, Function.comp, id_eq]
        constructor
        · rintro ⟨e, he, h⟩
          exact .choice he ((ih e he).mp h)
        · intro h
          cases h with
          | choice member one => exact ⟨_, member, (ih _ member).mpr one⟩
    | set minimum =>
        simp only [Aggregation.isNullable, decide_eq_true_eq, le_length_filter_iff]
        constructor
        · rintro ⟨untaken, among, each, enough⟩
          exact .set among each enough
        · intro h
          cases h with
          | set among each enough => exact ⟨_, among, each, enough⟩
  · intro kind cardinality ih
    simp only [Element.isNullable, Element.isOptional, Bool.or_eq_true, beq_iff_eq]
    constructor
    · rintro (hnone | honce)
      · exact .optional hnone
      · exact .occurs (ih.mp honce)
    · rintro (hnone | honce)
      · exact Or.inl hnone
      · exact Or.inr (ih.mpr honce)

/-- More productions that can succeed let more rules do so. -/
theorem Kind.Productive.mono {known known' : String → Prop} (h : ∀ s, known s → known' s) :
    (∀ k : Kind, k.Productive known → k.Productive known') ∧
      ∀ e : Element, e.Productive known → e.Productive known' := by
  apply Kind.induction
  · rintro symbol ⟨hsymbol⟩
    exact .reference (h symbol hsymbol)
  · rintro rule -
    exact .terminal rule
  · intro aggregation elements ih hk
    cases hk with
    | sequence all => exact .sequence fun e he => ih e he (all e he)
    | choice member one => exact .choice member (ih _ member one)
    | set among each enough =>
        exact .set among (fun e he => ih e (among.subset he) (each e he)) enough
  · rintro kind c ih (hnone | honce)
    · exact .optional hnone
    · exact .occurs (ih honce)

/-- A test of rules tells whether a rule has a property, given the symbols known to
have it, and no rule loses the property when more symbols are known. -/
structure Rule.Decides (test : (String → Bool) → Rule → Bool)
    (has : (String → Prop) → Rule → Prop) : Prop where
  persistent : Rule.Persistent test
  exact : ∀ known r, test known r = true ↔ has (fun s => known s = true) r

theorem Rule.isProductive_decides : Rule.Decides Rule.isProductive Rule.Productive := by
  have hexact : ∀ known r, Rule.isProductive known r = true ↔
      r.Productive fun s => known s = true := by
    intro known r
    cases r with
    | terminal rule => simp [Rule.isProductive, Rule.Productive]
    | composite r => exact Kind.isProductive_iff.1 _
  refine ⟨?_, hexact⟩
  intro known known' h r hr
  rw [hexact] at hr ⊢
  cases r with
  | terminal rule => exact hr
  | composite r => exact (Kind.Productive.mono h).1 _ hr

theorem Rule.isNullable_decides : Rule.Decides Rule.isNullable Rule.Nullable where
  persistent := Rule.isNullable_persistent
  exact known r := by
    cases r with
    | terminal rule => exact Iff.rfl
    | composite r => exact Kind.isNullable_iff.1 _

section

variable {test : (String → Bool) → Rule → Bool} {has : (String → Prop) → Rule → Prop}

theorem Rule.Decides.mono (h : Rule.Decides test has) {known known' : String → Prop}
    (hknown : ∀ s, known s → known' s) {r : Rule} (hr : has known r) : has known' r := by
  classical
  have hdecide (known : String → Prop) :
      test (fun s => decide (known s)) r = true ↔ has known r := by
    rw [h.exact]
    simp only [decide_eq_true_eq]
  have htest : test (fun s => decide (known' s)) r = true := by
    refine h.persistent ?_ r ((hdecide known).mpr hr)
    intro s hs
    rw [decide_eq_true_eq] at hs ⊢
    exact hknown s hs
  exact (hdecide known').mp htest

/-! ## Least sets -/

namespace Grammar

/-- The set has the symbol of a production as soon as it has enough for the rule. -/
def ClosedUnder (g : Grammar) (has : (String → Prop) → Rule → Prop) (known : String → Prop) :
    Prop :=
  ∀ s r, g.find? s = some r → has known r.rule → known s

/-- The symbols in every such set. -/
def Least (g : Grammar) (has : (String → Prop) → Rule → Prop) (s : String) : Prop :=
  ∀ known, g.ClosedUnder has known → known s

/-- The symbols of productions that can succeed on some input. -/
def Productive (g : Grammar) : String → Prop := g.Least Rule.Productive

/-- The symbols of productions that can succeed without reading a token. -/
def Nullable (g : Grammar) : String → Prop := g.Least Rule.Nullable

variable {g : Grammar}

/-- Nothing but what is found for the symbols matters. -/
theorem least_congr {g' : Grammar} (h : g.find? = g'.find?) (has : (String → Prop) → Rule → Prop) :
    g.Least has = g'.Least has := by
  funext s
  simp only [Least, ClosedUnder, h]

/-- Where no symbol is defined twice, it finds every production that has it. -/
theorem find?_eq_some_iff (hdistinct : g.symbols.Nodup) {s : String} {r : Production} :
    g.find? s = some r ↔ r ∈ g.productions ∧ r.symbol = s := by
  have hfound {r : Production} (h : g.find? s = some r) : r ∈ g.productions ∧ r.symbol = s :=
    ⟨List.mem_of_find?_eq_some h, symbol_of_find? h⟩
  refine ⟨hfound, ?_⟩
  rintro ⟨hr, rfl⟩
  have hdefines : g.defines r.symbol = true := g.defines_iff.mpr (List.mem_map_of_mem hr)
  obtain ⟨r', hr'⟩ := Option.isSome_iff_exists.mp hdefines
  have hsame := List.inj_on_of_nodup_map hdistinct hr (hfound hr').1 (hfound hr').2.symm
  rw [hr', hsame]

/-- The least set is itself one of those it is the least of. -/
theorem Least.closed (h : Rule.Decides test has) : g.ClosedUnder has (g.Least has) := by
  intro s r hfind hr known hclosed
  exact hclosed s r hfind (h.mono (fun t ht => ht known hclosed) hr)

/-- No round goes beyond a closed set. -/
theorem rounds_le_closed (h : Rule.Decides test has) (hdistinct : g.symbols.Nodup)
    {known : String → Prop} (hclosed : g.ClosedUnder has known) (n : Nat) :
    ∀ s ∈ g.rounds test n, known s := by
  induction n with
  | zero =>
      intro s hs
      exact absurd hs List.not_mem_nil
  | succ n ih =>
      intro s hs
      obtain ⟨r, hr, htest, rfl⟩ := g.mem_round_iff.mp hs
      refine hclosed r.symbol r ((find?_eq_some_iff hdistinct).mpr ⟨hr, rfl⟩) ?_
      refine h.mono (fun t ht => ih t ?_) ((h.exact _ _).mp htest)
      rwa [List.contains_iff_mem] at ht

/-- **Least sets.** The symbols found in rounds are those of the least set. -/
theorem mem_leastHaving_iff_least (h : Rule.Decides test has) (hdistinct : g.symbols.Nodup)
    {s : String} : s ∈ g.leastHaving test ↔ g.Least has s := by
  constructor
  · intro hs known hclosed
    exact rounds_le_closed h hdistinct hclosed _ s hs
  · intro hs
    apply hs
    intro t r hfind hr
    obtain ⟨hmem, hsymbol⟩ := (find?_eq_some_iff hdistinct).mp hfind
    have htest : test (g.leastHaving test).contains r.rule = true := by
      rw [h.exact]
      simpa only [List.contains_iff_mem] using hr
    exact (g.mem_leastHaving_iff h.persistent).mpr ⟨r, hmem, htest, hsymbol⟩

theorem mem_productive_iff (hdistinct : g.symbols.Nodup) {s : String} :
    s ∈ g.productive ↔ g.Productive s :=
  mem_leastHaving_iff_least Rule.isProductive_decides hdistinct

theorem mem_nullable_iff (hdistinct : g.symbols.Nodup) {s : String} :
    s ∈ g.nullable ↔ g.Nullable s :=
  mem_leastHaving_iff_least Rule.isNullable_decides hdistinct

end Grammar

end

end ConcreteSyntax
