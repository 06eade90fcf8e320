import ConcreteSyntax.Recognition

/-!
# Productions

A production gives a symbol to a rule. It may carry a validator, which looks at
every node that the rule recognizes and may refuse it. Validators are asked after
a recognition and so have no part in finding it.
-/

namespace ConcreteSyntax

/-- A check of a recognized node: nothing, or the reason to refuse it. -/
abbrev Validator := Node → Source → Option String

/-- A named rule. -/
structure Production where
  symbol : String
  rule : Rule
  /-- Goes before any validator registered for the symbol elsewhere. -/
  validator : Option Validator

namespace Production

/-- What becomes of a node that a validator saw. A refused node without tokens is
a failure; one with tokens had committed them. -/
def validated (validator : Option Validator) (src : Source) (path : Path) (start : Nat)
    (node : Node) (position : Nat) : Reply Diagnosis Node :=
  match validator.bind fun v => v node src with
  | none => .success node position
  | some reason =>
    .check (distance start position) fun length =>
    .check (src.seek start) fun p =>
      if length = 0 then .failure (.failed path start) p
      else .failure (.rejected path start length reason) p

/-- The production under a path that names it already; `fallback` is the validator
registered for its symbol elsewhere. -/
def recognizer (r : Production) (fallback : Option Validator) (scope : Scope) :
    NodeRecognizer := fun path p =>
  (r.rule.recognizer scope path p).bind fun node q =>
    validated (r.validator <|> fallback) scope.source path p node q

end Production

end ConcreteSyntax
