/-!
# Tables of code points

A set of code points is given by a table of ranges, in ascending order, both ends
included. All tables are of version 17 of the Unicode standard.
-/

namespace ConcreteSyntax.Text

/-- Is the character listed? Of all ranges only the first that does not end before
it can hold it. -/
def isListed (table : List (Nat × Nat)) (c : Char) : Bool :=
  match table.find? fun r => decide (c.toNat ≤ r.2) with
  | some r => decide (r.1 ≤ c.toNat)
  | none => false

end ConcreteSyntax.Text
