import ConcreteSyntax.Proofs.Slices

/-!
# Parsing expressions

A parsing expression is matched from a position of an input and either ends at a
position or fails. Alternatives are ordered, a repetition takes what it can get,
and a predicate looks ahead. An expression that runs in circles has no outcome;
no expression has two.
-/

namespace ConcreteSyntax

/-- A parsing expression. -/
inductive ParsingExpression where
  | empty
  /-- One token that is admitted. -/
  | token (admits : Char → Bool)
  /-- The expression of a symbol. -/
  | call (symbol : String)
  | seq (first second : ParsingExpression)
  /-- The second if the first fails. -/
  | choice (first second : ParsingExpression)
  /-- As often as possible. -/
  | star (body : ParsingExpression)
  /-- Nothing, where the body fails. -/
  | not (body : ParsingExpression)

namespace ParsingExpression

/-- Any token. -/
def any : ParsingExpression := .token fun _ => true

/-- No outcome but failure. -/
def fail : ParsingExpression := .not .empty

/-- The body or nothing. -/
def optional (body : ParsingExpression) : ParsingExpression := .choice body .empty

/-- All of them, one after the other. -/
def all (es : List ParsingExpression) : ParsingExpression := es.foldr seq .empty

/-- The first of them that does not fail. -/
def first (es : List ParsingExpression) : ParsingExpression := es.foldr choice .fail

/-- So many copies of the body and then what follows them. -/
def copies (body : ParsingExpression) : Nat → ParsingExpression → ParsingExpression
  | 0, after => after
  | n + 1, after => .seq body (copies body n after)

/-- So many copies of the body, each of them optional together with those behind
it. -/
def optionals (body : ParsingExpression) : Nat → ParsingExpression
  | 0 => .empty
  | n + 1 => optional (.seq body (optionals body n))

/-- The outcome of matching an expression from a position: the position where the
match ends, or none if it fails. `rules` gives the expressions of symbols. -/
inductive Parses (rules : String → ParsingExpression) (src : Source) :
    ParsingExpression → Nat → Option Nat → Prop where
  | empty (p : Nat) : Parses rules src .empty p (some p)
  | token {admits : Char → Bool} {p : Nat} {c : Char} (next : src.token? p = some c)
      (admitted : admits c = true) : Parses rules src (.token admits) p (some (p + 1))
  | token_refused {admits : Char → Bool} {p : Nat}
      (refused : ∀ c, src.token? p = some c → admits c = false) :
      Parses rules src (.token admits) p none
  | call {symbol : String} {p : Nat} {o : Option Nat} (body : Parses rules src (rules symbol) p o) :
      Parses rules src (.call symbol) p o
  | seq {e f : ParsingExpression} {p m : Nat} {o : Option Nat}
      (first : Parses rules src e p (some m)) (second : Parses rules src f m o) :
      Parses rules src (.seq e f) p o
  | seq_fails {e f : ParsingExpression} {p : Nat} (first : Parses rules src e p none) :
      Parses rules src (.seq e f) p none
  | choice {e f : ParsingExpression} {p q : Nat} (first : Parses rules src e p (some q)) :
      Parses rules src (.choice e f) p (some q)
  | choice_second {e f : ParsingExpression} {p : Nat} {o : Option Nat}
      (first : Parses rules src e p none) (second : Parses rules src f p o) :
      Parses rules src (.choice e f) p o
  | star {e : ParsingExpression} {p m : Nat} {o : Option Nat} (body : Parses rules src e p (some m))
      (others : Parses rules src (.star e) m o) : Parses rules src (.star e) p o
  | star_ends {e : ParsingExpression} {p : Nat} (body : Parses rules src e p none) :
      Parses rules src (.star e) p (some p)
  | not {e : ParsingExpression} {p : Nat} (body : Parses rules src e p none) :
      Parses rules src (.not e) p (some p)
  | not_fails {e : ParsingExpression} {p q : Nat} (body : Parses rules src e p (some q)) :
      Parses rules src (.not e) p none

variable {rules : String → ParsingExpression} {src : Source} {e f : ParsingExpression}

/-- **Outcomes are unique.** -/
theorem Parses.deterministic {p : Nat} {o o' : Option Nat} (h : Parses rules src e p o)
    (h' : Parses rules src e p o') : o = o' := by
  induction h generalizing o' with
  | empty p =>
      cases h'
      rfl
  | token next admitted =>
      cases h' with
      | token _ _ => rfl
      | token_refused refused => exact absurd admitted (by simp [refused _ next])
  | token_refused refused =>
      cases h' with
      | token next admitted => exact absurd admitted (by simp [refused _ next])
      | token_refused _ => rfl
  | call _ ih =>
      cases h' with
      | call body => exact ih body
  | seq _ _ ihFirst ihSecond =>
      cases h' with
      | seq first second =>
          obtain rfl := Option.some.inj (ihFirst first)
          exact ihSecond second
      | seq_fails first => cases ihFirst first
  | seq_fails _ ih =>
      cases h' with
      | seq first _ => cases ih first
      | seq_fails _ => rfl
  | choice _ ih =>
      cases h' with
      | choice first => exact ih first
      | choice_second first _ => cases ih first
  | choice_second _ _ ihFirst ihSecond =>
      cases h' with
      | choice first => cases ihFirst first
      | choice_second _ second => exact ihSecond second
  | star _ _ ihBody ihOthers =>
      cases h' with
      | star body others =>
          obtain rfl := Option.some.inj (ihBody body)
          exact ihOthers others
      | star_ends body => cases ihBody body
  | star_ends _ ih =>
      cases h' with
      | star body _ => cases ih body
      | star_ends _ => rfl
  | not _ ih =>
      cases h' with
      | not _ => rfl
      | not_fails body => cases ih body
  | not_fails _ ih =>
      cases h' with
      | not body => cases ih body
      | not_fails _ => rfl

theorem parses_fail (p : Nat) : Parses rules src fail p none := .not_fails (.empty p)

theorem parses_token_of_refused {admits : Char → Bool} {p : Nat} {c : Char}
    (next : src.token? p = some c) (refused : ¬ admits c = true) :
    Parses rules src (.token admits) p none := by
  apply Parses.token_refused
  intro c' hc'
  obtain rfl := Option.some.inj (next.symm.trans hc')
  exact Bool.eq_false_iff.mpr refused

/-- An optional body that fails is left out. -/
theorem Parses.optional_empty {p : Nat} (h : Parses rules src e p none) :
    Parses rules src (optional e) p (some p) :=
  .choice_second h (.empty p)

/-- The end of the input is where no token is left. -/
theorem parses_not_any_iff {p : Nat} {o : Option Nat} :
    Parses rules src (.not any) p o ↔ o = if src.size ≤ p then some p else none := by
  have hends : Parses rules src (.not any) p (if src.size ≤ p then some p else none) := by
    by_cases hp : src.size ≤ p
    · rw [if_pos hp]
      apply Parses.not
      apply Parses.token_refused
      intro c hc
      rw [Source.token?_eq_none_iff.mpr hp] at hc
      cases hc
    · rw [if_neg hp]
      cases htoken : src.token? p with
      | none => exact absurd (Source.token?_eq_none_iff.mp htoken) hp
      | some c => exact .not_fails (.token htoken rfl)
  constructor
  · intro h
    exact h.deterministic hends
  · rintro rfl
    exact hends

end ParsingExpression

end ConcreteSyntax
