import ConcreteSyntax.Recognizer

/-!
# Choices

Alternatives are tried in order, and the first that is recognized wins. A failed
alternative is passed over; an incomplete one has committed tokens and ends the
choice. If all fail, the diagnosis is that of the alternative which got through
most elements, the earliest of several, with the count forgotten.
-/

namespace ConcreteSyntax

/-- The diagnosis that got further, the first one of two that got equally far. -/
def furthest (sofar : Option GroupDiagnosis) (d : GroupDiagnosis) : GroupDiagnosis :=
  match sofar with
  | none => d
  | some best => if best.count < d.count then d else best

/-- The alternatives after others that failed, of which `sofar` got furthest. -/
def choiceAfter : (sofar : Option GroupDiagnosis) → List ForestRecognizer → ForestRecognizer
  | none, [], path, p => .failure ⟨0, .failed path p⟩ p
  | some d, [], _, p => .failure (d.withCount 0) p
  | sofar, element :: rest, path, p =>
    match element path p with
    | .success f q => .success f q
    | .failure d q =>
      if d.cause.isIncomplete then .failure d q
      else choiceAfter (some (furthest sofar d)) rest path q
    | .fault f => .fault f
    | .unfinished => .unfinished

/-- The first alternative that is recognized. -/
def choice (alternatives : List ForestRecognizer) : ForestRecognizer :=
  choiceAfter none alternatives

end ConcreteSyntax
