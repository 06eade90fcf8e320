import ConcreteSyntax.CharRange
import ConcreteSyntax.Recognizer

/-!
# Character classes

A class reads one token, which must lie in an included range, if there are any,
and in no excluded one.
-/

namespace ConcreteSyntax

/-- A class of characters. -/
structure CharClass where
  included : RangeSet
  excluded : RangeSet
deriving DecidableEq

namespace CharClass

/-- The class with these ranges, in any order and with any overlap. -/
def ofRanges (included excluded : List CharRange) : CharClass :=
  ⟨.ofList included, .ofList excluded⟩

/-- Does the class admit the character? -/
def admits (k : CharClass) (c : Char) : Bool := RangeSet.admits k.included k.excluded c

/-- An atom over the next token. -/
def recognize (k : CharClass) (src : Source) : NodeRecognizer := fun path p =>
  match src.token? p with
  | some c =>
    if k.admits c then
      .check (Segment.ofBounds p (p + 1)) fun seg => .success (.atom path.symbol seg) (p + 1)
    else .failure (.failed path p) p
  | none => .failure (.failed path p) p

end CharClass

end ConcreteSyntax
