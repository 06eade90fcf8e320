import ConcreteSyntax.Fault

/-!
# Segments

A segment says which tokens of an input something covers. It is measured in
tokens and holds no part of the input itself.
-/

namespace ConcreteSyntax

/-- The `count` tokens from `offset` on. -/
structure Segment where
  offset : Nat
  count : Nat
deriving DecidableEq, Repr

namespace Segment

/-- The segment that covers nothing, at the start of the input. -/
instance : Inhabited Segment := ⟨⟨0, 0⟩⟩

/-- The segment that covers no token, placed at `offset`. -/
def empty (offset : Nat) : Segment := ⟨offset, 0⟩

/-- The offset one past the last token covered. -/
def stop (s : Segment) : Nat := s.offset + s.count

def isEmpty (s : Segment) : Bool := s.count == 0

/-- The segment from `start` up to `stop`, which must not come before `start`. -/
def ofBounds (start stop : Nat) : Except Fault Segment :=
  if start ≤ stop then .ok ⟨start, stop - start⟩ else .error (.inverted start stop)

def join (s t : Segment) : Segment :=
  let start := min s.offset t.offset
  ⟨start, max s.stop t.stop - start⟩

def coveredBy (s t : Segment) : Bool :=
  decide (t.offset ≤ s.offset) && decide (s.stop ≤ t.stop)

theorem ofBounds_of_le {start stop : Nat} (h : start ≤ stop) :
    ofBounds start stop = .ok ⟨start, stop - start⟩ := by
  simp [ofBounds, h]

theorem join_eq_ofBounds (s t : Segment) :
    ofBounds (min s.offset t.offset) (max s.stop t.stop) = .ok (s.join t) := by
  have : min s.offset t.offset ≤ max s.stop t.stop := by
    simp only [stop]
    omega
  simp [ofBounds, this, join]

end Segment

end ConcreteSyntax
