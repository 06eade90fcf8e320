import ConcreteSyntax.Path

/-!
# Diagnoses

A recognition that does not succeed says why. The two kinds of diagnosis are not
interchangeable: after a *failed* recognition no token was committed to the
symbol, and something else may be tried at the same position; after an
*incomplete* one tokens were committed, the input is malformed, and the diagnosis
has to reach the top. A group adds how many of its elements were recognized
before it stopped, which is what a threshold is compared with.
-/

namespace ConcreteSyntax

/-- Why a symbol was not recognized. -/
inductive Diagnosis where
  /-- Nothing was recognized for `path` at `position`. -/
  | failed (path : Path) (position : Nat)
  /-- `length` tokens from `position` on were recognized for `path` before
  recognition broke down. A `reason` comes from a validator that refused them; a
  `cause` is the failure further down by which the recognition was cut short. -/
  | incomplete (path : Path) (position length : Nat) (reason : Option String)
      (cause : Option Diagnosis)
deriving Repr

namespace Diagnosis

/-- Recognition stopped after `length` tokens. -/
def partway (path : Path) (position length : Nat) : Diagnosis :=
  .incomplete path position length none none

/-- A validator refused the `length` tokens recognized. -/
def rejected (path : Path) (position length : Nat) (reason : String) : Diagnosis :=
  .incomplete path position length (some reason) none

/-- A failure further down came too late for anything else to be tried. -/
def promoted (path : Path) (position length : Nat) (cause : Diagnosis) : Diagnosis :=
  .incomplete path position length none (some cause)

/-- The symbols at which recognition broke down. -/
def path : Diagnosis → Path
  | failed p _ => p
  | incomplete p _ _ _ _ => p

/-- The position at which the symbol started. -/
def position : Diagnosis → Nat
  | failed _ n => n
  | incomplete _ n _ _ _ => n

/-- How many tokens had been recognized: none by a failed recognition. -/
def length : Diagnosis → Nat
  | failed _ _ => 0
  | incomplete _ _ n _ _ => n

/-- The position at which recognition made no further progress. -/
def stop (d : Diagnosis) : Nat := d.position + d.length

/-- Was no token committed? -/
def isFailed : Diagnosis → Bool
  | failed _ _ => true
  | incomplete _ _ _ _ _ => false

/-- Were tokens committed? -/
def isIncomplete : Diagnosis → Bool
  | failed _ _ => false
  | incomplete _ _ _ _ _ => true

/-- What a validator had to say. -/
def reason? : Diagnosis → Option String
  | failed _ _ => none
  | incomplete _ _ _ r _ => r

/-- The failure by which the recognition was cut short. -/
def cause? : Diagnosis → Option Diagnosis
  | failed _ _ => none
  | incomplete _ _ _ _ c => c

def causes : Diagnosis → List Diagnosis
  | failed _ _ => []
  | incomplete _ _ _ _ none => []
  | incomplete _ _ _ _ (some c) => c :: c.causes

/-- The last in the chain of causes: the most specific symbol and position. -/
def deepest : Diagnosis → Diagnosis
  | failed p n => failed p n
  | incomplete p n l r none => incomplete p n l r none
  | incomplete _ _ _ _ (some c) => c.deepest

def agrees : Diagnosis → Diagnosis → Bool
  | failed p n, failed p' n' => decide (p = p') && n == n'
  | incomplete p n l r none, incomplete p' n' l' r' none =>
    decide (p = p') && n == n' && l == l' && r == r'
  | incomplete p n l r (some c), incomplete p' n' l' r' (some c') =>
    decide (p = p') && n == n' && l == l' && r == r' && c.agrees c'
  | _, _ => false

theorem agrees_iff (d e : Diagnosis) : d.agrees e = true ↔ d = e := by
  fun_induction agrees d e with
  | case1 => simp
  | case2 => simp [and_assoc]
  | case3 _ _ _ _ _ _ _ _ _ _ ih => simp [ih, and_assoc]
  | case4 d e not_failed not_ended not_caused =>
    constructor
    · simp
    · rintro rfl
      cases d with
      | failed p n => exact (not_failed _ _ _ _ rfl rfl).elim
      | incomplete p n l r c =>
        cases c with
        | none => exact (not_ended _ _ _ _ _ _ _ _ rfl rfl).elim
        | some c => exact (not_caused _ _ _ _ _ _ _ _ _ _ rfl rfl).elim

instance : DecidableEq Diagnosis := fun d e => decidable_of_iff _ (agrees_iff d e)

/-- The wording of a diagnosis. Causes are not part of it. -/
def message : Diagnosis → String
  | failed p n => s!"Failed to recognize '{p}' at token {n}"
  | incomplete p n l r _ =>
    let what := s!"Partially recognized '{p}' at token {n} ({l} tokens recognized)"
    match r with
    | some reason => what ++ ": " ++ reason
    | none => what

end Diagnosis

/-- Why a group, or an element of one, was not recognized. -/
structure GroupDiagnosis where
  /-- How many elements had been recognized before. -/
  count : Nat
  /-- What stopped the group. -/
  cause : Diagnosis
deriving DecidableEq, Repr

namespace GroupDiagnosis

/-- A diagnosis before which no element had been recognized. -/
def ofDiagnosis (d : Diagnosis) : GroupDiagnosis := ⟨0, d⟩

/-- The same cause after `count` elements. -/
def withCount (d : GroupDiagnosis) (count : Nat) : GroupDiagnosis := { d with count }

/-- The wording of a group's diagnosis. -/
def message (d : GroupDiagnosis) : String :=
  s!"{d.cause.message} (after {d.count} group elements)"

end GroupDiagnosis

end ConcreteSyntax
