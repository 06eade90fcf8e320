import ConcreteSyntax.Proofs.Grammar.LeastSets
import ConcreteSyntax.Proofs.Grammar.LeftCalls

/-!
# References and openings

A production refers to the symbols that stand anywhere in its rule, and opens with
those that may be called before its rule has read a token. What the analysis reaches
from the root, and what it finds to come back to itself, is what chains of these two
relations lead to.
-/

namespace ConcreteSyntax

/-! ## In a rule -/

/-- The symbol stands somewhere in the kind. -/
inductive Kind.Mentions (symbol : String) : Kind → Prop where
  | reference : Kind.Mentions symbol (.reference symbol)
  | group {aggregation : Aggregation} {elements : List Element} {e : Element}
      (member : e ∈ elements) (inner : Kind.Mentions symbol e.kind) :
      Kind.Mentions symbol (.group aggregation elements)

def Rule.Mentions (symbol : String) : Rule → Prop
  | .terminal _ => False
  | .composite r => r.group.toKind.Mentions symbol

/-- The symbol may be called before one occurrence of the kind has read a token, if the
productions with the symbols in `known` can succeed without one. An element of a
sequence may be entered so only if all before it can succeed without a token. -/
inductive Kind.OpensWith (known : String → Prop) (symbol : String) : Kind → Prop where
  | reference : Kind.OpensWith known symbol (.reference symbol)
  | group {aggregation : Aggregation} {pre post : List Element} {e : Element}
      (before : aggregation = .sequence → ∀ e' ∈ pre, e'.Nullable known)
      (inner : Kind.OpensWith known symbol e.kind) :
      Kind.OpensWith known symbol (.group aggregation (pre ++ e :: post))

def Rule.OpensWith (known : String → Prop) (symbol : String) : Rule → Prop
  | .terminal _ => False
  | .composite r => r.group.toKind.OpensWith known symbol

theorem Element.mem_references_iff {s : String} {es : List Element} :
    s ∈ Element.references es ↔ ∃ e ∈ es, s ∈ e.kind.references := by
  induction es with
  | nil => simp [Element.references]
  | cons e rest ih =>
      obtain ⟨kind, cardinality⟩ := e
      rw [Element.references, List.mem_append, ih, List.exists_mem_cons_iff]
      rfl

theorem Kind.mem_references_iff {s : String} : ∀ k : Kind, s ∈ k.references ↔ k.Mentions s := by
  have hboth : (∀ k : Kind, s ∈ k.references ↔ k.Mentions s) ∧
      ∀ e : Element, s ∈ e.kind.references ↔ e.kind.Mentions s := by
    apply Kind.induction
    · intro symbol
      rw [Kind.references, List.mem_singleton]
      constructor
      · rintro rfl
        exact .reference
      · rintro ⟨⟩
        rfl
    · intro rule
      rw [Kind.references]
      exact ⟨fun h => absurd h List.not_mem_nil, nofun⟩
    · intro aggregation elements ih
      rw [Kind.references, Element.mem_references_iff]
      constructor
      · rintro ⟨e, he, hs⟩
        exact .group he ((ih e he).mp hs)
      · rintro (_ | ⟨he, hs⟩)
        exact ⟨_, he, (ih _ he).mpr hs⟩
    · intro kind cardinality ih
      exact ih
  exact hboth.1

theorem Rule.mem_references_iff {s : String} (r : Rule) : s ∈ r.references ↔ r.Mentions s := by
  cases r with
  | terminal rule => simp [Rule.references, Rule.Mentions]
  | composite r =>
      have hkind := Kind.mem_references_iff (s := s) r.group.toKind
      rwa [Group.toKind, Kind.references] at hkind

/-- What a list of elements calls first is called by one of them. If they are ordered,
those before it can succeed without a token. -/
theorem Element.mem_leftCalls_iff {nullable : String → Bool} {ordered : Bool} {s : String} :
    ∀ {es : List Element}, s ∈ Element.leftCalls nullable ordered es ↔
      ∃ pre e post, es = pre ++ e :: post ∧
        (ordered = true → ∀ e' ∈ pre, e'.isNullable nullable = true) ∧
        s ∈ e.kind.leftCalls nullable
  | [] => by simp [Element.leftCalls]
  | .mk kind c :: rest => by
      rw [Element.leftCalls, List.mem_append]
      constructor
      · rintro (hs | hs)
        · exact ⟨[], .mk kind c, rest, rfl, fun _ e' he' => absurd he' List.not_mem_nil, hs⟩
        · split at hs
          · exact absurd hs List.not_mem_nil
          · -- the others are entered only behind an element that can read nothing
            rename_i hopen
            obtain ⟨pre, e, post, rfl, hpre, hs⟩ := Element.mem_leftCalls_iff.mp hs
            refine ⟨.mk kind c :: pre, e, post, rfl, ?_, hs⟩
            intro hordered e' he'
            rcases List.mem_cons.mp he' with rfl | he'
            · simpa [hordered] using hopen
            · exact hpre hordered e' he'
      · rintro ⟨pre, e, post, heq, hpre, hs⟩
        rcases List.cons_eq_append_iff.mp heq with ⟨rfl, hcons⟩ | ⟨pre, rfl, rfl⟩
        · obtain ⟨rfl, rfl⟩ := List.cons.inj hcons
          exact Or.inl hs
        · right
          have hopen : ¬ (ordered && !(Element.mk kind c).isNullable nullable) = true := by
            cases ordered with
            | false => simp
            | true => simp [hpre rfl _ List.mem_cons_self]
          rw [if_neg hopen]
          refine Element.mem_leftCalls_iff.mpr ⟨pre, e, post, rfl, ?_, hs⟩
          intro hordered e' he'
          exact hpre hordered e' (List.mem_cons_of_mem _ he')

theorem Kind.mem_leftCalls_iff {nullable : String → Bool} {s : String} : ∀ k : Kind,
    s ∈ k.leftCalls nullable ↔ k.OpensWith (fun s => nullable s = true) s := by
  have hboth : (∀ k : Kind, s ∈ k.leftCalls nullable ↔
        k.OpensWith (fun s => nullable s = true) s) ∧
      ∀ e : Element, s ∈ e.kind.leftCalls nullable ↔
        e.kind.OpensWith (fun s => nullable s = true) s := by
    apply Kind.induction
    · intro symbol
      rw [Kind.leftCalls, List.mem_singleton]
      constructor
      · rintro rfl
        exact .reference
      · rintro ⟨⟩
        rfl
    · intro rule
      rw [Kind.leftCalls]
      exact ⟨fun h => absurd h List.not_mem_nil, nofun⟩
    · intro aggregation elements ih
      rw [Kind.leftCalls, Element.mem_leftCalls_iff]
      simp only [beq_iff_eq, Kind.isNullable_iff.2]
      constructor
      · rintro ⟨pre, e, post, rfl, hpre, hs⟩
        exact .group hpre ((ih e (by simp)).mp hs)
      · intro h
        cases h with
        | @group _ pre post e hpre hs => exact ⟨pre, e, post, rfl, hpre, (ih e (by simp)).mpr hs⟩
    · intro kind cardinality ih
      exact ih
  exact hboth.1

theorem Rule.mem_leftCalls_iff {nullable : String → Bool} {s : String} (r : Rule) :
    s ∈ r.leftCalls nullable ↔ r.OpensWith (fun s => nullable s = true) s := by
  cases r with
  | terminal rule => simp [Rule.leftCalls, Rule.OpensWith]
  | composite r => exact Kind.mem_leftCalls_iff _

/-! ## Between productions -/

namespace Grammar

/-- The symbol stands somewhere in the rule of the production. -/
def RefersTo (g : Grammar) (s t : String) : Prop := ∃ r, g.find? s = some r ∧ r.rule.Mentions t

/-- The production may call the symbol before it has read a token. -/
def OpensWith (g : Grammar) (s t : String) : Prop :=
  ∃ r, g.find? s = some r ∧ r.rule.OpensWith g.Nullable t

variable {g : Grammar}

section

variable {g' : Grammar} (h : g.find? = g'.find?)

include h

theorem mem_symbols_congr {s : String} : s ∈ g.symbols ↔ s ∈ g'.symbols := by
  rw [← defines_iff, ← defines_iff, defines, defines, h]

theorem refersTo_congr : g.RefersTo = g'.RefersTo := by
  funext s t
  simp only [RefersTo, h]

theorem opensWith_congr : g.OpensWith = g'.OpensWith := by
  funext s t
  simp only [OpensWith, Nullable, h, least_congr h]

end

section

variable {listed : Rule → List String} {R : String → String → Prop}
variable (hR : ∀ s t, R s t ↔ ∃ r, g.find? s = some r ∧ t ∈ listed r.rule)

include hR

theorem leads_iff {s t : String} : g.Leads listed s t ↔ R s t ∧ t ∈ g.symbols := by
  rw [Leads, successors, hR]
  cases hfind : g.find? s with
  | none => simp
  | some r => simp [g.defines_iff]

/-- Where a chain starts that leads to something defined is defined. -/
theorem mem_symbols_of_chain {s t : String} (h : Relation.ReflTransGen R s t)
    (ht : t ∈ g.symbols) : s ∈ g.symbols := by
  rcases Relation.ReflTransGen.cases_head h with rfl | ⟨u, hsu, -⟩
  · exact ht
  · obtain ⟨r, hr, -⟩ := (hR s u).mp hsu
    exact g.defines_iff.mp (Option.isSome_of_eq_some hr)

/-- The analysis looks only at what is defined. That is no loss: chains to something
defined never leave it. -/
theorem chain_leads_iff {s t : String} (ht : t ∈ g.symbols) :
    Relation.ReflTransGen (g.Leads listed) s t ↔ Relation.ReflTransGen R s t := by
  constructor
  · apply Relation.ReflTransGen.mono
    intro s t hst
    exact ((leads_iff hR).mp hst).1
  · intro h
    induction h using Relation.ReflTransGen.head_induction_on with
    | refl => exact .refl
    | @head s u hsu hut ih =>
        exact .head ((leads_iff hR).mpr ⟨hsu, mem_symbols_of_chain hR hut ht⟩) ih

end

/-- **Reached.** The analysis finds what chains of references lead to from the root. -/
theorem mem_reachable_iff {s : String} :
    s ∈ g.reachable ↔
      g.root ∈ g.symbols ∧ s ∈ g.symbols ∧ Relation.ReflTransGen g.RefersTo g.root s := by
  have hR (s t : String) : g.RefersTo s t ↔ ∃ r, g.find? s = some r ∧ t ∈ r.rule.references := by
    simp only [RefersTo, Rule.mem_references_iff]
  have hmem : s ∈ g.reachable ↔
      g.root ∈ g.symbols ∧ Relation.ReflTransGen (g.Leads Rule.references) g.root s := by
    rw [reachable, mem_closure_iff]
    simp [g.defines_iff]
  rw [hmem]
  constructor
  · rintro ⟨hroot, h⟩
    have hs : s ∈ g.symbols := by
      rcases Relation.ReflTransGen.cases_tail h with rfl | ⟨u, -, hus⟩
      · exact hroot
      · exact hus.mem_symbols.2
    exact ⟨hroot, hs, (chain_leads_iff hR hs).mp h⟩
  · rintro ⟨hroot, hs, h⟩
    exact ⟨hroot, (chain_leads_iff hR hs).mpr h⟩

/-- **Left recursion.** The analysis finds what chains of openings lead back to. -/
theorem mem_leftRecursive_iff_opensWith (hdistinct : g.symbols.Nodup) {s : String} :
    s ∈ g.leftRecursive ↔ Relation.TransGen g.OpensWith s s := by
  have hnullable : (fun s => g.nullable.contains s = true) = g.Nullable := by
    funext s
    rw [List.contains_iff_mem, mem_nullable_iff hdistinct]
  have hR (s t : String) :
      g.OpensWith s t ↔ ∃ r, g.find? s = some r ∧ t ∈ g.calledLeft r.rule := by
    simp only [OpensWith, calledLeft, Rule.mem_leftCalls_iff, hnullable]
  rw [mem_leftRecursive_iff, mem_closure_iff, Relation.TransGen.head'_iff]
  constructor
  · rintro ⟨hs, u, hsu, -, hus⟩
    exact ⟨u, ((leads_iff hR).mp hsu).1, (chain_leads_iff hR hs).mp hus⟩
  · rintro ⟨u, hsu, hus⟩
    have hs : s ∈ g.symbols := by
      obtain ⟨r, hr, -⟩ := hsu
      exact g.defines_iff.mp (Option.isSome_of_eq_some hr)
    have hu : u ∈ g.symbols := mem_symbols_of_chain hR hus hs
    exact ⟨hs, u, (leads_iff hR).mpr ⟨hsu, hu⟩, g.defines_iff.mpr hu,
      (chain_leads_iff hR hs).mpr hus⟩

end Grammar

end ConcreteSyntax
