/-!
# Requests outside their domain

A few primitive requests make sense only in a domain: a cursor is placed within
its input, a segment starts no later than it ends, a window lies within the
input. Such a request answers in `Except Fault`, so that "no recognition ever
leaves the domain" can be stated of the engine instead of being assumed by it.
-/

namespace ConcreteSyntax

/-- What was asked for outside its domain. -/
inductive Fault where
  /-- A cursor was to be placed after the end of the input. -/
  | beyondEnd (target size : Nat)
  /-- A segment was to start after its own end. -/
  | inverted (start stop : Nat)
  /-- The tokens from `start` to `stop` do not lie within an input of `size` tokens. -/
  | outsideInput (start stop size : Nat)
  /-- The distance from `start` forward to `stop` does not exist. -/
  | backwards (start stop : Nat)
  /-- A recognition failed and left the cursor at `position` instead of `entry`. -/
  | strayed (entry position : Nat)
  /-- A child node was not covered by its parent's segment. -/
  | uncovered (symbol : String)
  /-- A repetition ended with a number of occurrences it does not allow. -/
  | miscounted (occurrences : Nat)
deriving DecidableEq, Repr

/-- The wording of a fault. Only a segment that starts after its end has one. -/
def Fault.message? : Fault → Option String
  | .inverted start stop => some s!"Segment starts ({start}) after it ends ({stop})!"
  | _ => none

/-- How far it is from `start` forward to `stop`. -/
def distance (start stop : Nat) : Except Fault Nat :=
  if start ≤ stop then .ok (stop - start) else .error (.backwards start stop)

theorem distance_of_le {start stop : Nat} (h : start ≤ stop) :
    distance start stop = .ok (stop - start) := by
  simp [distance, h]

end ConcreteSyntax
