import ConcreteSyntax.Recognizer

/-!
# Sets

The members of a set are recognized in any order. All orders are explored in
which members can be taken one after the other; a member is taken only if it
reads something, and one that may be absent counts as recognized while it is not
taken. Of the orders found one that satisfies the set is preferred, then one that
takes more members, then one that reads more tokens, and of equals the one found
first. A member that is incomplete ends the search.
-/

namespace ConcreteSyntax

/-- A member of a set. -/
structure Member where
  optional : Bool
  recognizer : ForestRecognizer

/-- What an order of members comes to. -/
structure Candidate where
  /-- Are enough members recognized? -/
  satisfied : Bool
  taken : Nat
  stop : Nat
  nodes : List Node
deriving Repr

namespace Candidate

/-- Is `c` preferred to `d`? -/
def beats (c d : Candidate) : Bool :=
  if c.satisfied != d.satisfied then c.satisfied
  else if c.taken ≠ d.taken then decide (d.taken < c.taken)
  else decide (d.stop < c.stop)

/-- The candidate with a member's nodes put before it. -/
def after (first : Forest) (c : Candidate) : Candidate :=
  { c with nodes := first.nodes ++ c.nodes }

end Candidate

/-- A set as a whole. -/
structure Quorum where
  source : Source
  total : Nat
  /-- How many have to be recognized. -/
  required : Nat

namespace Quorum

/-- What it comes to if no further member is taken. -/
def standing (s : Quorum) (members : List Member) (taken position : Nat) : Candidate :=
  { satisfied := decide (s.required ≤ taken + (members.filter Member.optional).length)
    taken
    stop := position
    nodes := [] }

/-- The best of `best` and what comes of taking next one of the members still to
be tried, those in `tried`, the last first, having been tried at `start` before.
`search` explores what remains after one more member is taken. -/
def explore (s : Quorum) (search : List Member → Nat → Nat → Reply GroupDiagnosis Candidate)
    (path : Path) (start taken : Nat) :
    (tried members : List Member) → Candidate → Nat → Reply GroupDiagnosis Candidate
  | _, [], best, p => .success best p
  | tried, m :: rest, best, p =>
    match m.recognizer path p with
    | .success f q =>
      if start < q then
        match search (tried.reverse ++ rest) (taken + 1) q with
        | .success c _ =>
          .check (s.source.seek start) fun p =>
            if c.beats best then
              if c.taken = s.total then .success (c.after f) p
              else s.explore search path start taken (m :: tried) rest (c.after f) p
            else s.explore search path start taken (m :: tried) rest best p
        | .failure d _ => .check (s.source.seek start) fun p => .failure d p
        | .fault f => .fault f
        | .unfinished => .unfinished
      else s.explore search path start taken (m :: tried) rest best q
    | .failure d q =>
      if d.cause.isIncomplete then .failure (d.withCount (taken + d.count)) q
      else s.explore search path start taken (m :: tried) rest best q
    | .fault f => .fault f
    | .unfinished => .unfinished

/-- The best order of the members not yet taken. The first argument is how many
of them may still be taken. -/
def search (s : Quorum) (path : Path) :
    Nat → List Member → Nat → Nat → Reply GroupDiagnosis Candidate
  | 0, members, taken, p => .success (s.standing members taken p) p
  | n + 1, members, taken, p =>
    s.explore (s.search path n) path p taken [] members (s.standing members taken p) p

/-- What the best order comes to for a set entered at `entry`. -/
def settle (s : Quorum) (path : Path) (entry : Nat) (best : Candidate) (position : Nat) :
    Reply GroupDiagnosis Forest :=
  if best.satisfied then
    .check (s.source.seek best.stop) fun q =>
      .success (if best.taken = 0 then .optionalEmpty else .ofNodes best.nodes) q
  else if best.taken = 0 then .failure ⟨0, .failed path entry⟩ position
  else .check (distance entry best.stop) fun length =>
    .failure ⟨best.taken, .partway path entry length⟩ position

end Quorum

/-- The members in the best order, of which `required` have to be recognized. -/
def anyOrder (src : Source) (members : List Member) (required : Nat) : ForestRecognizer :=
  fun path p =>
    let s : Quorum := ⟨src, members.length, required⟩
    Reply.restoring src p <|
      (s.search path members.length members 0 p).bind fun best q => s.settle path p best q

end ConcreteSyntax
