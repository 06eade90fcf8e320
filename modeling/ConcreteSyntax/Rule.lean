import ConcreteSyntax.Cardinality
import ConcreteSyntax.Terminal

/-!
# Rules

A rule is a terminal or a composite: a group of elements, possibly with a
threshold. An element is a kind with a cardinality; its kind is a reference to a
production by symbol, a terminal, or a group again.
-/

namespace ConcreteSyntax

/-- How the elements of a group are combined. -/
inductive Aggregation where
  /-- One after the other. -/
  | sequence
  /-- The first alternative that is recognized. -/
  | choice
  /-- In any order; without a minimum all of them are required. -/
  | set (minimum : Option Nat)
deriving DecidableEq, Repr

mutual

/-- What an element is about. -/
inductive Kind where
  /-- The production with this symbol, which need not exist yet. -/
  | reference (symbol : String)
  /-- A rule without a symbol of its own. -/
  | terminal (rule : Terminal)
  /-- A group within the group. -/
  | group (aggregation : Aggregation) (elements : List Element)

/-- A kind and how often it occurs. -/
inductive Element where
  | mk (kind : Kind) (cardinality : Cardinality)

end

namespace Element

def kind : Element → Kind
  | mk k _ => k

def cardinality : Element → Cardinality
  | mk _ c => c

def isOptional (e : Element) : Bool := e.cardinality.min == 0

end Element

/-- Elements and how they are combined. -/
structure Group where
  aggregation : Aggregation
  elements : List Element

namespace Group

/-- How many elements a set of so many requires. -/
def requirement (minimum : Option Nat) (elements : Nat) : Nat := minimum.getD elements

/-- How many elements have to be recognized, if the group is a set. -/
def required? (g : Group) : Option Nat :=
  match g.aggregation with
  | .set minimum => some (requirement minimum g.elements.length)
  | _ => none

def build (aggregation : Aggregation) (elements : List Element) : Except RuleError Group :=
  if elements.isEmpty then .error .emptyGroup
  else match aggregation with
    | .set (some minimum) =>
      if minimum = 0 ∨ elements.length < minimum then
        .error (.setMinimumOutOfRange minimum elements.length)
      else .ok ⟨aggregation, elements⟩
    | _ => .ok ⟨aggregation, elements⟩

/-- A group has elements and, if it is a set with a minimum, requires at least one of them
and no more than there are. -/
theorem build_eq_ok_iff {aggregation : Aggregation} {elements : List Element} {g : Group} :
    build aggregation elements = .ok g ↔
      elements ≠ [] ∧ g = ⟨aggregation, elements⟩ ∧
        ∀ minimum, aggregation = .set (some minimum) →
          1 ≤ minimum ∧ minimum ≤ elements.length := by
  cases elements with
  | nil => simp [build]
  | cons e rest =>
      cases aggregation with
      | sequence => simp [build, eq_comm]
      | choice => simp [build, eq_comm]
      | set minimum =>
          cases minimum with
          | none => simp [build, eq_comm]
          | some m =>
              simp only [build, List.isEmpty_cons, Bool.false_eq_true, if_false]
              by_cases hrange : m = 0 ∨ (e :: rest).length < m
              · rw [if_pos hrange]
                constructor
                · rintro ⟨⟩
                · rintro ⟨-, -, hbounds⟩
                  have := hbounds m rfl
                  omega
              · rw [if_neg hrange]
                constructor
                · rintro ⟨⟩
                  refine ⟨List.cons_ne_nil e rest, rfl, ?_⟩
                  rintro _ ⟨⟩
                  omega
                · rintro ⟨-, rfl, -⟩
                  rfl

/-- Elements of which there is one at least make any group but a set with a minimum. -/
theorem build_of_ne_nil {aggregation : Aggregation} {elements : List Element}
    (hminimum : ∀ minimum, aggregation ≠ .set (some minimum)) (h : elements ≠ []) :
    build aggregation elements = .ok ⟨aggregation, elements⟩ :=
  build_eq_ok_iff.mpr ⟨h, rfl, fun minimum hset => absurd hset (hminimum minimum)⟩

def toKind (g : Group) : Kind := .group g.aggregation g.elements

end Group

/-- A group as a rule. Once `threshold` elements are recognized, the input has to
be this and nothing else. -/
structure Composite where
  group : Group
  threshold : Option Nat

/-- The composite rule of a group, with or without a threshold. -/
def Composite.build (group : Group) (threshold : Option Nat) : Except RuleError Composite :=
  if threshold = some 0 then .error .zeroThreshold else .ok ⟨group, threshold⟩

/-- What a production recognizes. -/
inductive Rule where
  | terminal (rule : Terminal)
  | composite (rule : Composite)

namespace Rule

/-- Does the rule refer to nothing else? -/
def isAtomic : Rule → Bool
  | terminal _ => true
  | composite _ => false

end Rule

end ConcreteSyntax
