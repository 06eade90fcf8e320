import ConcreteSyntax.CharRange
import ConcreteSyntax.Text.CaseVariants

/-!
# Bracketed sets

A bracketed set lists its members: ranges, and bracketed sets again. Sets are
combined by operators, and a bracketed set may be negated. The set keeps the form
in which it was written; `contains` says what it means and `resolve` gives the
same tokens as ranges in normal form.
-/

namespace ConcreteSyntax

/-- The tokens that are in a set but for case. -/
def RangeSet.anyCase (s : RangeSet) : RangeSet :=
  let variants := Text.casedLetters.flatMap fun c =>
    let cs := Text.caseVariants c
    if cs.any s.contains then cs else []
  .ofList (s.toList ++ variants.map .single)

/-- A set of tokens, as it is written between brackets. -/
inductive TokenSet where
  /-- Given tokens. -/
  | listed (tokens : RangeSet)
  /-- The members of either set. -/
  | union (left right : TokenSet)
  /-- The members of both sets. -/
  | inter (left right : TokenSet)
  /-- The members of the left set that are not in the right one. -/
  | diff (left right : TokenSet)
  /-- The members of one of the sets that are not in both. -/
  | symmDiff (left right : TokenSet)
  /-- What stands between two brackets or, if `negated`, all else. -/
  | bracketed (negated : Bool) (body : TokenSet)
deriving DecidableEq

namespace TokenSet

/-- Is the token in the set? -/
def contains : TokenSet → Char → Bool
  | listed tokens, c => tokens.contains c
  | union left right, c => left.contains c || right.contains c
  | inter left right, c => left.contains c && right.contains c
  | diff left right, c => left.contains c && !right.contains c
  | symmDiff left right, c => left.contains c != right.contains c
  | bracketed negated body, c => body.contains c != negated

/-- The tokens of the set as ranges. -/
def resolve : TokenSet → RangeSet
  | listed tokens => tokens
  | union left right => left.resolve.union right.resolve
  | inter left right => left.resolve.inter right.resolve
  | diff left right => left.resolve.diff right.resolve
  | symmDiff left right =>
    (left.resolve.diff right.resolve).union (right.resolve.diff left.resolve)
  | bracketed negated body => if negated then body.resolve.complement else body.resolve

/-- The set with the tokens that are given in it whatever their case. -/
def anyCase : TokenSet → TokenSet
  | listed tokens => listed tokens.anyCase
  | union left right => union left.anyCase right.anyCase
  | inter left right => inter left.anyCase right.anyCase
  | diff left right => diff left.anyCase right.anyCase
  | symmDiff left right => symmDiff left.anyCase right.anyCase
  | bracketed negated body => bracketed negated body.anyCase

/-- The union of some sets, given from the last to the first. -/
def ofReversed : List TokenSet → TokenSet
  | [] => listed .empty
  | [s] => s
  | s :: before => union (ofReversed before) s

/-- Are several members listed side by side? -/
def isUnion : TokenSet → Bool
  | union _ _ => true
  | _ => false

/-- How deep the set is nested. All members listed side by side lie one level
below their union, and operands one level below their operator. -/
def depth : TokenSet → Nat
  | listed _ => 0
  | union left right =>
    max (if left.isUnion then left.depth else left.depth + 1) (right.depth + 1)
  | inter left right | diff left right | symmDiff left right => max left.depth right.depth + 1
  | bracketed _ body => body.depth + 1

end TokenSet

end ConcreteSyntax
