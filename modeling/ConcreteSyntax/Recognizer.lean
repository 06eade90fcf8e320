import ConcreteSyntax.Diagnosis
import ConcreteSyntax.Node
import ConcreteSyntax.Reply

/-!
# Recognizers

A recognizer starts at a position of an input and answers there. The path it is
given names what is being recognized, for use in diagnoses and as the name of
the nodes. Two sorts occur: one yields a node, and one, which serves as an
element of a group, yields a forest and counts the elements it got through.
-/

namespace ConcreteSyntax

/-- From a path and a position to an answer. -/
abbrev Recognizer (ε α : Type) := Path → Nat → Reply ε α

/-- What a rule or a production does. -/
abbrev NodeRecognizer := Recognizer Diagnosis Node

/-- What a group or an element of one does. -/
abbrev ForestRecognizer := Recognizer GroupDiagnosis Forest

/-- A node as the forest of one element of a group. -/
def Reply.toForest (r : Reply Diagnosis Node) : Reply GroupDiagnosis Forest :=
  (r.map Forest.single).mapFailure GroupDiagnosis.ofDiagnosis

end ConcreteSyntax
