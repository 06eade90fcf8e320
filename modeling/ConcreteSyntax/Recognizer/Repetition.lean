import ConcreteSyntax.Cardinality
import ConcreteSyntax.Recognizer

/-!
# Repetition

A recognizer is repeated from where its last occurrence ended until an occurrence
is not recognized, the maximum is reached, or an occurrence reads nothing. The
last counts as enough whatever the minimum: any further occurrence could only
read the same nothing. A run of occurrences records all this, and the
cardinality then judges it.
-/

namespace ConcreteSyntax

/-- What ended a run of occurrences. -/
inductive RunEnd where
  | full
  /-- An occurrence read nothing. -/
  | idle
  | stopped (diagnosis : GroupDiagnosis)
deriving Repr

/-- A run of occurrences. -/
structure Run where
  nodes : List Node
  occurrences : Nat
  ending : RunEnd
deriving Repr

namespace Run

/-- The run with an occurrence put before it. -/
def after (first : Forest) (run : Run) : Run := { run with nodes := first.nodes ++ run.nodes }

/-- How often the recognizer was called. -/
def calls (run : Run) : Nat :=
  match run.ending with
  | .stopped _ => run.occurrences + 1
  | _ => run.occurrences

end Run

namespace Cardinality

/-- The run of occurrences from a position on, `done` having been recognized
before. `occurrence` is given the number of those before it. The first argument
after it bounds the number of further calls. -/
def runFrom (c : Cardinality) (occurrence : Nat → Nat → Reply GroupDiagnosis Forest) :
    (bound done position : Nat) → Reply Empty Run
  | bound, done, p =>
    if c.isFull done then .success ⟨[], done, .full⟩ p
    else match bound with
      | 0 => .unfinished
      | bound + 1 =>
        match occurrence done p with
        | .success f q =>
          if q = p then .success ⟨f.nodes, done + 1, .idle⟩ q
          else (c.runFrom occurrence bound (done + 1) q).map (Run.after f)
        | .failure d q => .success ⟨[], done, .stopped d⟩ q
        | .fault f => .fault f
        | .unfinished => .unfinished

/-- The forest of a run that ended at a position. No nodes from no occurrence are
those of an optional step. -/
def accept (c : Cardinality) (run : Run) (position : Nat) : Reply GroupDiagnosis Forest :=
  if run.ending matches .idle ∨ c.accepts run.occurrences then
    .success (if run.occurrences = 0 then .optionalEmpty else .ofNodes run.nodes) position
  else .fault (.miscounted run.occurrences)

/-- What the cardinality makes of a run. An incomplete occurrence is never
passed over, and a failed one only once the minimum is met. -/
def judge (c : Cardinality) (run : Run) (position : Nat) : Reply GroupDiagnosis Forest :=
  match run.ending with
  | .stopped d =>
    if d.cause.isIncomplete ∨ run.occurrences < c.min then
      .failure (d.withCount (run.occurrences + d.count)) position
    else c.accept run position
  | _ => c.accept run position

/-- As many occurrences as the cardinality allows. A call of `occurrence` is
given the number of those before it; `bound` limits the number of calls. -/
def repeating (c : Cardinality) (src : Source) (bound : Nat)
    (occurrence : Nat → ForestRecognizer) : ForestRecognizer := fun path p =>
  Reply.restoring src p <|
    match c.runFrom (fun done => occurrence done path) bound 0 p with
    | .success run q => c.judge run q
    | .failure e _ => nomatch e
    | .fault f => .fault f
    | .unfinished => .unfinished

end Cardinality

end ConcreteSyntax
