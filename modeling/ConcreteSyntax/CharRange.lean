import ConcreteSyntax.RuleError

/-!
# Ranges of characters

A range holds the characters from `low` to `high`, both included. Several ranges
are kept in a normal form, in which ranges ascend and neither overlap nor touch;
then a character is looked up by bisection.
-/

namespace ConcreteSyntax

/-- The characters from `low` to `high`. -/
structure CharRange where
  low : Char
  high : Char
  low_le_high : low ≤ high
deriving DecidableEq

namespace CharRange

/-- The range from `low` to `high`, which must not come before `low`. -/
def ofBounds (low high : Char) : Except RuleError CharRange :=
  if h : low ≤ high then .ok ⟨low, high, h⟩ else .error (.invalidRange low high)

def single (c : Char) : CharRange := ⟨c, c, Char.le_refl c⟩

def contains (r : CharRange) (c : Char) : Bool := decide (r.low ≤ c) && decide (c ≤ r.high)

/-- The written form: both ends, or the one character. -/
def toString (r : CharRange) : String :=
  if r.low = r.high then s!"{r.low}" else s!"{r.low}-{r.high}"

instance : ToString CharRange := ⟨toString⟩

/-- Ranges are ordered by their first character, then by their last. -/
def precedes (r s : CharRange) : Bool :=
  decide (r.low < s.low) || (r.low == s.low && decide (r.high ≤ s.high))

/-- The range up to `high` if that is further than `r` reaches, else `r`. -/
def reaching (r : CharRange) (high : Char) : CharRange :=
  if h : r.high ≤ high then ⟨r.low, high, Char.le_trans r.low_le_high h⟩ else r

/-- Ordered ranges with all that overlap or touch made one, `r` being the first. -/
def merge (r : CharRange) : List CharRange → List CharRange
  | [] => [r]
  | s :: rest =>
    if s.low.toNat ≤ r.high.toNat + 1 then merge (r.reaching s.high) rest
    else r :: merge s rest

/-- The range from `low` to `high`, if `low` does not come after `high`. -/
def between? (low high : Char) : Option CharRange :=
  if h : low ≤ high then some ⟨low, high, h⟩ else none

/-- The last character before the range, if there is one. No character lies
between `\ud7ff` and `\ue000`. -/
def before? (r : CharRange) : Option Char :=
  let n := r.low.toNat
  if n = 0 then none else if n = 0xe000 then some '\ud7ff' else some (Char.ofNat (n - 1))

/-- The first character after the range, if there is one. -/
def after? (r : CharRange) : Option Char :=
  let n := r.high.toNat
  if n = 0x10ffff then none else if n = 0xd7ff then some '\ue000' else some (Char.ofNat (n + 1))

/-- What ascending ranges leave out of all characters from the given one on. -/
def gaps : Option Char → List CharRange → List CharRange
  | none, _ => []
  | some low, [] => (between? low (Char.ofNat 0x10ffff)).toList
  | some low, r :: rest => (r.before?.bind (between? low)).toList ++ gaps r.after? rest

/-- The same characters in ascending ranges that neither overlap nor touch. -/
def normalize (ranges : List CharRange) : List CharRange :=
  match ranges.mergeSort precedes with
  | [] => []
  | r :: rest => merge r rest

end CharRange

/-- The least index from `low` on at which `p` fails, if `p` holds up to some
index and fails from there to `high`. The first argument bounds the number of
halvings. -/
def bisect (p : Nat → Bool) : Nat → Nat → Nat → Nat
  | 0, low, _ => low
  | fuel + 1, low, high =>
    if low < high then
      let middle := (low + high) / 2
      if p middle then bisect p fuel (middle + 1) high else bisect p fuel low middle
    else low

/-- A set of characters, as ranges in normal form. -/
structure RangeSet where
  ranges : Array CharRange
deriving DecidableEq

namespace RangeSet

def ofList (ranges : List CharRange) : RangeSet := ⟨(CharRange.normalize ranges).toArray⟩

def empty : RangeSet := ⟨#[]⟩

def single (c : Char) : RangeSet := ⟨#[.single c]⟩

def toList (s : RangeSet) : List CharRange := s.ranges.toList

def isEmpty (s : RangeSet) : Bool := s.ranges.isEmpty

/-- Does the range at `index` end before `c`? -/
def endsBefore (s : RangeSet) (c : Char) (index : Nat) : Bool :=
  match s.ranges[index]? with
  | some r => decide (r.high < c)
  | none => false

/-- Is the character in the set? Of all ranges only the first that does not end
before the character can hold it. -/
def contains (s : RangeSet) (c : Char) : Bool :=
  match s.ranges[bisect (s.endsBefore c) s.ranges.size 0 s.ranges.size]? with
  | some r => decide (r.low ≤ c)
  | none => false

def union (s t : RangeSet) : RangeSet := .ofList (s.toList ++ t.toList)

def complement (s : RangeSet) : RangeSet := ⟨(CharRange.gaps (some '\x00') s.toList).toArray⟩

def inter (s t : RangeSet) : RangeSet := (s.complement.union t.complement).complement

def diff (s t : RangeSet) : RangeSet := s.inter t.complement

/-- Is the character admitted by `included` ranges, where none at all admit every
character, and not barred by `excluded` ones? -/
def admits (included excluded : RangeSet) (c : Char) : Bool :=
  (included.isEmpty || included.contains c) && !excluded.contains c

end RangeSet

end ConcreteSyntax
