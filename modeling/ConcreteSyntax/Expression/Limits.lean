import ConcreteSyntax.Expression.Automaton
import ConcreteSyntax.Expression.Notation

/-!
# Limits of expressions

A text is refused as a regular expression not only if it is badly formed but also
if the expression is nested too deep or its automaton would take too much room.
-/

namespace ConcreteSyntax.Expression

/-- Do several expressions follow one another? -/
def isConcat : Expression → Bool
  | concat _ _ => true
  | _ => false

/-- Are there several alternatives? -/
def isEither : Expression → Bool
  | either _ _ => true
  | _ => false

/-- How deep the expression is nested. All expressions that follow one another lie
one level below their sequence, and so do alternatives and what is grouped or
repeated. -/
def depth : Expression → Nat
  | oneOf set => set.depth
  | group _ body => body.depth + 1
  | concat first second =>
    max (if first.isConcat then first.depth else first.depth + 1) (second.depth + 1)
  | either left right =>
    max (if left.isEither then left.depth else left.depth + 1) (right.depth + 1)
  | repeated body _ _ => body.depth + 1
  | _ => 0

/-- The greatest depth of an expression. -/
def depthLimit : Nat := 250

/-- The greatest room of an automaton: ten mebibytes. -/
def roomLimit : Nat := 10 * 1024 * 1024

/-- Does the expression keep to the limits? -/
def isWithinLimits (e : Expression) : Bool :=
  decide (e.depth ≤ depthLimit) && decide (e.room .forward ≤ roomLimit) &&
    decide (e.room .backward ≤ roomLimit)

/-- The test of windows by the expression that a text denotes, if it denotes one within
the limits. -/
def test? (text : String) : Option (List Char → Bool) :=
  ((ofString? text).filter isWithinLimits).map occursIn

end ConcreteSyntax.Expression
