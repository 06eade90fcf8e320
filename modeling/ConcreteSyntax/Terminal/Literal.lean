import ConcreteSyntax.Recognizer
import ConcreteSyntax.RuleError
import ConcreteSyntax.Text.Lowercase

/-!
# Literals

A literal is a fixed sequence of tokens, read token by token. Case is a matter of
the single token: two tokens are the same letter if they have the same lower
case.
-/

namespace ConcreteSyntax

/-- A fixed sequence of tokens. -/
structure Literal where
  tokens : List Char
  caseSensitive : Bool
  tokens_ne_nil : tokens ≠ []
deriving DecidableEq

namespace Literal

def ofString (value : String) (caseSensitive : Bool) : Except RuleError Literal :=
  if h : value.toList ≠ [] then .ok ⟨value.toList, caseSensitive, h⟩
  else .error .emptyLiteral

/-- What the literal reads, as it was given. -/
def value (l : Literal) : String := String.ofList l.tokens

/-- Does the literal take `actual` where it has `expected`? -/
def admits (l : Literal) (expected actual : Char) : Bool :=
  expected == actual || (!l.caseSensitive && Text.sameLetter expected actual)

/-- The position after `expected`, if it comes next. -/
def readFrom (l : Literal) (src : Source) : List Char → Nat → Option Nat
  | [], p => some p
  | e :: rest, p =>
    match src.token? p with
    | some c => if l.admits e c then l.readFrom src rest (p + 1) else none
    | none => none

def recognize (l : Literal) (src : Source) : NodeRecognizer := fun path p =>
  match l.readFrom src l.tokens p with
  | some q => .check (Segment.ofBounds p q) fun seg => .success (.atom path.symbol seg) q
  | none => .check (src.seek p) fun p' => .failure (.failed path p) p'

end Literal

end ConcreteSyntax
