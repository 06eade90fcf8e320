import ConcreteSyntax.Recognition

/-!
# Induction over rules

Kinds, elements and lists of elements are defined by mutual recursion. What is
shown of all of them is shown here once: a property of kinds and one of elements
hold throughout if references and terminals have the first, a group has it when
its elements have the second, and an element has the second when its kind has
the first.
-/

namespace ConcreteSyntax

section

variable {K : Kind → Prop} {E : Element → Prop}
variable (reference : ∀ symbol, K (.reference symbol)) (terminal : ∀ rule, K (.terminal rule))
variable (group : ∀ aggregation elements, (∀ e ∈ elements, E e) → K (.group aggregation elements))
variable (mk : ∀ kind cardinality, K kind → E (.mk kind cardinality))

include reference terminal group mk in
/-- **Induction over rules.** Both properties are shown together, since neither is
inductive without the other. -/
theorem Kind.induction : (∀ k, K k) ∧ (∀ e, E e) := by
  have nil : ∀ e ∈ ([] : List Element), E e := fun e h => absurd h List.not_mem_nil
  have cons : ∀ (head : Element) (rest : List Element), E head → (∀ e ∈ rest, E e) →
      ∀ e ∈ head :: rest, E e := by
    intro head rest hhead hrest e he
    rcases List.mem_cons.mp he with rfl | he
    · exact hhead
    · exact hrest e he
  exact ⟨@Kind.rec K E (fun es => ∀ e ∈ es, E e) reference terminal group mk nil cons,
    @Element.rec K E (fun es => ∀ e ∈ es, E e) reference terminal group mk nil cons⟩

end

/-- The members of a group are the recognizers of its elements. -/
theorem Element.map_recognizer_members (scope : Scope) (elements : List Element) :
    (Element.members scope elements).map Member.recognizer =
      elements.map (Element.recognizer scope) := by
  rw [Element.members_eq_map, List.map_map]
  rfl

@[simp] theorem Element.length_members (scope : Scope) (elements : List Element) :
    (Element.members scope elements).length = elements.length := by
  rw [Element.members_eq_map, List.length_map]

namespace Group

theorem ne_nil_of_build {aggregation : Aggregation} {elements : List Element} {g : Group}
    (h : build aggregation elements = .ok g) : elements ≠ [] :=
  (build_eq_ok_iff.mp h).1

/-- A set that can be built requires no more elements than it has. -/
theorem build_set {minimum : Option Nat} {elements : List Element} {g : Group}
    (h : Group.build (.set minimum) elements = .ok g) :
    g = ⟨.set minimum, elements⟩ ∧ requirement minimum elements.length ≤ elements.length := by
  obtain ⟨-, rfl, hbounds⟩ := build_eq_ok_iff.mp h
  cases minimum with
  | none => exact ⟨rfl, Nat.le_refl _⟩
  | some n => exact ⟨rfl, (hbounds n rfl).2⟩

variable (scope : Scope) (elements : List Element)

theorem recognizer_sequence :
    recognizer scope ⟨.sequence, elements⟩ =
      sequence scope.source (elements.map (Element.recognizer scope)) := by
  rw [recognizer, Aggregation.recognizer, Element.map_recognizer_members]

theorem recognizer_choice :
    recognizer scope ⟨.choice, elements⟩ =
      choice (elements.map (Element.recognizer scope)) := by
  rw [recognizer, Aggregation.recognizer, Element.map_recognizer_members]

theorem recognizer_set (minimum : Option Nat) :
    recognizer scope ⟨.set minimum, elements⟩ =
      anyOrder scope.source (Element.members scope elements)
        (requirement minimum elements.length) := by
  rw [recognizer, Aggregation.recognizer, Element.length_members]

end Group

/-- An element repeats its kind. -/
theorem Element.recognizer_mk (scope : Scope) (kind : Kind) (c : Cardinality) :
    (Element.mk kind c).recognizer scope =
      c.repeating scope.source scope.bound fun _ => kind.recognizer scope := by
  rw [Element.recognizer]

end ConcreteSyntax
