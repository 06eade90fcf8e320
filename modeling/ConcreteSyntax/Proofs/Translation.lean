import ConcreteSyntax.Proofs.Nullability
import ConcreteSyntax.Proofs.ParsingExpression

/-!
# Rules as parsing expressions

Rules made of literals, character classes and the end of the input by sequences
and choices are parsing expressions: a repetition is so many copies of its kind
and then optional ones or a star. If no threshold and no validator interferes and
only kinds that read something are repeated, recognition has the outcome that the
expression has.
-/

namespace ConcreteSyntax

open ParsingExpression

/-! ## Translation -/

/-- The expression of a terminal. Terminals that parsing expressions do not have
fail. -/
def Terminal.expression : Terminal → ParsingExpression
  | .literal l => .all (l.tokens.map fun expected => .token (l.admits expected))
  | .charClass k => .token k.admits
  | .endOfInput => .not .any
  | .delimited _ | .pattern _ => .fail

/-- As many copies of the body as are required, then as many optional ones as are
allowed. -/
def Cardinality.expression (c : Cardinality) (body : ParsingExpression) : ParsingExpression :=
  .copies body c.min <|
    match c.max with
    | none => .star body
    | some m => .optionals body (m - c.min)

mutual

/-- The expression of one occurrence. Sets fail. -/
def Kind.expression : Kind → ParsingExpression
  | .reference symbol => .call symbol
  | .terminal rule => rule.expression
  | .group .sequence elements => .all (Element.expressions elements)
  | .group .choice elements => .first (Element.expressions elements)
  | .group (.set _) _ => .fail

/-- The expressions of elements. -/
def Element.expressions : List Element → List ParsingExpression
  | [] => []
  | .mk kind cardinality :: rest =>
    cardinality.expression kind.expression :: Element.expressions rest

end

/-- The expression of an element. -/
def Element.expression (e : Element) : ParsingExpression :=
  e.cardinality.expression e.kind.expression

theorem Element.expressions_eq_map (es : List Element) :
    Element.expressions es = es.map Element.expression := by
  induction es with
  | nil => rfl
  | cons e rest ih =>
      obtain ⟨kind, cardinality⟩ := e
      rw [Element.expressions, ih]
      rfl

/-- The expression of a rule. -/
def Rule.expression : Rule → ParsingExpression
  | .terminal rule => rule.expression
  | .composite r => r.group.toKind.expression

/-- The expression of a symbol. A symbol without a production fails. -/
def Language.expression (l : Language) (symbol : String) : ParsingExpression :=
  match l.grammar.find? symbol with
  | some r => r.rule.expression
  | none => .fail

/-! ## What can be translated -/

/-- The recognizer never succeeds where it was entered. -/
def Recognizer.Consumes {ε α : Type} (src : Source) (r : Recognizer ε α) : Prop :=
  ∀ path p v, p ≤ src.size → r path p ≠ .success v p

mutual

/-- The kind is made of parts that parsing expressions have, and where the maximum
is not one, what is repeated reads something. -/
inductive Kind.Translatable (scope : Scope) : Kind → Prop where
  | reference (symbol : String) : Kind.Translatable scope (.reference symbol)
  | literal (l : Literal) : Kind.Translatable scope (.terminal (.literal l))
  | charClass (k : CharClass) : Kind.Translatable scope (.terminal (.charClass k))
  | endOfInput : Kind.Translatable scope (.terminal .endOfInput)
  | sequence {es : List Element} (parts : ∀ e ∈ es, Element.Translatable scope e) :
      Kind.Translatable scope (.group .sequence es)
  | choice {es : List Element} (parts : ∀ e ∈ es, Element.Translatable scope e) :
      Kind.Translatable scope (.group .choice es)

inductive Element.Translatable (scope : Scope) : Element → Prop where
  | mk {k : Kind} {c : Cardinality} (part : Kind.Translatable scope k)
      (consumes : c.max ≠ some 1 → Recognizer.Consumes scope.source (k.recognizer scope)) :
      Element.Translatable scope (.mk k c)

end

/-- The rule is made of such parts and has no threshold. -/
def Rule.Translatable (scope : Scope) : Rule → Prop
  | .terminal rule => Kind.Translatable scope (.terminal rule)
  | .composite r => r.threshold = none ∧ r.group.toKind.Translatable scope

/-- The rules of the language can be translated, and there are no validators. -/
structure Language.Translatable (l : Language) (src : Source) : Prop where
  rules : ∀ r ∈ l.grammar.productions, r.rule.Translatable (l.fullScope src)
  unvalidated : ∀ r ∈ l.grammar.productions, r.validator = none
  unregistered : ∀ symbol, l.validators symbol = none

/-- Kinds that are not nullable read something whenever they succeed. -/
theorem Kind.consumes_of_not_nullable {l : Language} {src : Source} {k : Kind}
    (h : k.isNullable l.grammar.nullable.contains = false) :
    Recognizer.Consumes src (k.recognizer (l.fullScope src)) := by
  intro path p v hp hrun
  have hidle := (Kind.idleOnlyIf (l.scope_orderly src (l.stage src))
    (l.scope_idleOnlyIf src (l.stage src))).1 k path p v (by simpa using hp) hrun
  rw [h] at hidle
  cases hidle

end ConcreteSyntax
