import ConcreteSyntax.Recognizer

/-!
# Sequences

Elements are recognized one after the other. If the first is not recognized,
nothing was; if a later one is not, the elements before it are counted, so that
an enclosing threshold sees how far recognition got.
-/

namespace ConcreteSyntax

/-- The elements from the one numbered `index` on. -/
def sequenceFrom : (index : Nat) → List ForestRecognizer → ForestRecognizer
  | _, [], _, p => .success .empty p
  | index, element :: rest, path, p =>
    match element path p with
    | .success f q =>
      (sequenceFrom (index + 1) rest path q).map fun g => .ofNodes (f.nodes ++ g.nodes)
    | .failure d q =>
      .failure (d.withCount (if index = 0 then 0 else index + d.count)) q
    | .fault f => .fault f
    | .unfinished => .unfinished

/-- All elements, in order. -/
def sequence (src : Source) (elements : List ForestRecognizer) : ForestRecognizer :=
  fun path p => Reply.restoring src p (sequenceFrom 0 elements path p)

end ConcreteSyntax
