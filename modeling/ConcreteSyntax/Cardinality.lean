import ConcreteSyntax.RuleError

/-!
# Cardinalities

A cardinality says how often an element must occur and how often it may. It
never forbids every occurrence.
-/

namespace ConcreteSyntax

/-- At least `min` occurrences and, if there is a maximum, at most that many. -/
structure Cardinality where
  min : Nat
  max : Option Nat
  /-- The maximum allows some occurrence, and as many as are required. -/
  bounds_le : ∀ m ∈ max, 1 ≤ m ∧ min ≤ m
deriving DecidableEq

namespace Cardinality

def ofBounds (min : Nat) (max : Option Nat) : Except CardinalityError Cardinality :=
  match max with
  | none => .ok ⟨min, none, by simp⟩
  | some m =>
    if h₀ : m = 0 then .error .zeroMaximum
    else if h₁ : m < min then .error (.maxBelowMin min m)
    else .ok ⟨min, some m, by simp; omega⟩

def atLeast (n : Nat) : Cardinality := ⟨n, none, by simp⟩

def exactly (n : Nat) : Except CardinalityError Cardinality := ofBounds n (some n)

def once : Cardinality := ⟨1, some 1, by simp⟩

def optional : Cardinality := ⟨0, some 1, by simp⟩

def zeroOrMore : Cardinality := atLeast 0

def oneOrMore : Cardinality := atLeast 1

/-- Have so many occurrences reached the maximum? -/
def isFull (c : Cardinality) (n : Nat) : Bool :=
  match c.max with
  | none => false
  | some m => decide (m ≤ n)

def accepts (c : Cardinality) (n : Nat) : Bool :=
  decide (c.min ≤ n) &&
    match c.max with
    | none => true
    | some m => decide (n ≤ m)

/-- The written form: both bounds in braces, an absent maximum left out. -/
def toString (c : Cardinality) : String :=
  match c.max with
  | none => s!"\x7b{c.min},\x7d"
  | some m => s!"\x7b{c.min},{m}\x7d"

instance : ToString Cardinality := ⟨toString⟩

end Cardinality

end ConcreteSyntax
