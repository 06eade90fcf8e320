import ConcreteSyntax.Recognizer.AnyOrder
import ConcreteSyntax.Recognizer.Choice
import ConcreteSyntax.Recognizer.Repetition
import ConcreteSyntax.Recognizer.Sequence
import ConcreteSyntax.Rule

/-!
# Recognition of rules

The recognizer of an element, a group or a rule is put together from those of its
parts along its structure. References are the only way out of this structure;
what they lead to is given by the scope in which a rule is recognized, together
with the input and a bound on the number of steps.
-/

namespace ConcreteSyntax

/-- What a rule needs from outside. -/
structure Scope where
  source : Source
  /-- Bounds every repetition. -/
  bound : Nat
  /-- The production with a symbol, under a path that names it already. -/
  production : String → NodeRecognizer

/-- The recognizer of a group with these members. -/
def Aggregation.recognizer (a : Aggregation) (src : Source) (members : List Member) :
    ForestRecognizer :=
  match a with
  | .sequence => ConcreteSyntax.sequence src (members.map Member.recognizer)
  | .choice => ConcreteSyntax.choice (members.map Member.recognizer)
  | .set minimum => anyOrder src members (Group.requirement minimum members.length)

mutual

/-- One occurrence of an element of this kind. -/
def Kind.recognizer (scope : Scope) : Kind → ForestRecognizer
  | .reference symbol => fun path p =>
    (scope.production symbol (path.child symbol) p).toForest
  | .terminal rule => fun path p =>
    (rule.recognize scope.source (path.child rule.inlineSymbol) p).toForest
  | .group aggregation elements =>
    aggregation.recognizer scope.source (Element.members scope elements)

/-- As many occurrences as the element's cardinality allows. -/
def Element.recognizer (scope : Scope) : Element → ForestRecognizer
  | .mk kind cardinality =>
    cardinality.repeating scope.source scope.bound fun _ => kind.recognizer scope

def Element.members (scope : Scope) : List Element → List Member
  | [] => []
  | e :: rest => ⟨e.isOptional, e.recognizer scope⟩ :: Element.members scope rest

end

theorem Element.members_eq_map (scope : Scope) (elements : List Element) :
    Element.members scope elements =
      elements.map fun e => ⟨e.isOptional, e.recognizer scope⟩ := by
  induction elements with
  | nil => rfl
  | cons e rest ih => simp [Element.members, ih]

def Group.recognizer (scope : Scope) (g : Group) : ForestRecognizer :=
  g.aggregation.recognizer scope.source (Element.members scope g.elements)

/-- A group within a group is recognized as the same group. -/
theorem Group.recognizer_toKind (scope : Scope) (g : Group) :
    g.toKind.recognizer scope = g.recognizer scope := by
  simp [Group.toKind, Kind.recognizer, Group.recognizer]

namespace Composite

/-- What a group's diagnosis becomes for the rule entered at `start`. A failure
is promoted once the threshold is met and tokens were read before it. -/
def conclude (r : Composite) (path : Path) (start : Nat) (d : GroupDiagnosis) : Diagnosis :=
  let length := d.cause.stop - start
  match r.threshold with
  | none => d.cause
  | some threshold =>
    if d.cause.isFailed ∧ threshold ≤ d.count ∧ 0 < length then
      .promoted path start length d.cause
    else d.cause

/-- A composite node over what the group yields. -/
def recognizer (r : Composite) (scope : Scope) : NodeRecognizer := fun path p =>
  match r.group.recognizer scope path p with
  | .success f q =>
    .check (Segment.ofBounds p q) fun seg =>
    .check (Node.ofChildren path.symbol seg f.nodes) fun node => .success node q
  | .failure d q =>
    if q = p then .failure (r.conclude path p d) q else .fault (.strayed p q)
  | .fault f => .fault f
  | .unfinished => .unfinished

end Composite

def Rule.recognizer (scope : Scope) : Rule → NodeRecognizer
  | .terminal rule => rule.recognize scope.source
  | .composite rule => rule.recognizer scope

end ConcreteSyntax
