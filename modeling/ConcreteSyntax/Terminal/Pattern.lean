import ConcreteSyntax.Expression.Limits
import ConcreteSyntax.Recognizer

/-!
# Patterns

A pattern matches a window of tokens as a whole against a regular expression.
Which windows are tried, and which match is taken, is the business of a mode, and
the modes ask nothing of the expression but whether it matches.
-/

namespace ConcreteSyntax

/-- How the length of the window is found. -/
inductive MatchMode where
  /-- The longest window of `min` to `max` tokens that matches. -/
  | within (min max : Nat)
  /-- The window grows token by token, and the longest match counts. More than
  `tolerance` lengths in a row that do not match end the search. If nothing
  matched, the empty window will do if `allowEmpty`. -/
  | growing (tolerance : Nat) (allowEmpty : Bool)
deriving DecidableEq, Repr

namespace MatchMode

/-- The greatest length from `low` to `high` that `matches` accepts. -/
def longestFrom (low : Nat) (accepts : Nat → Bool) : Nat → Option Nat
  | 0 => if low = 0 ∧ accepts 0 then some 0 else none
  | high + 1 =>
    if high + 1 < low then none
    else if accepts (high + 1) then some (high + 1)
    else longestFrom low accepts high

/-- The last length accepted when `left` lengths from `length` on are tried in
order, `best` being the last so far and `misses` the lengths refused since. -/
def grow (tolerance : Nat) (accepts : Nat → Bool) :
    (left length : Nat) → (best : Option Nat) → (misses : Nat) → Option Nat
  | 0, _, best, _ => best
  | left + 1, length, best, misses =>
    if accepts length then grow tolerance accepts left (length + 1) (some length) 0
    else if tolerance < misses + 1 then best
    else grow tolerance accepts left (length + 1) best (misses + 1)

/-- The length of the window taken where `available` tokens are left. -/
def length? (mode : MatchMode) (accepts : Nat → Bool) (available : Nat) : Option Nat :=
  match mode with
  | within min max => longestFrom min accepts (Nat.min max available)
  | growing tolerance allowEmpty =>
    match grow tolerance accepts available 1 none 0 with
    | some n => some n
    | none => if allowEmpty then some 0 else none

/-- Can the empty window be taken, if `acceptsEmpty` says whether it matches? -/
def isNullable (mode : MatchMode) (acceptsEmpty : Bool) : Bool :=
  match mode with
  | within min _ => min == 0 && acceptsEmpty
  | growing _ allowEmpty => allowEmpty

/-- The mode, if it admits a window at all. -/
def validate (mode : MatchMode) : Except RuleError MatchMode :=
  match mode with
  | within min max =>
    if max = 0 ∨ max < min then .error (.invalidMatchWindow min max) else .ok mode
  | growing _ _ => .ok mode

end MatchMode

/-- A test of windows and a mode. -/
structure Pattern where
  /-- The expression as it was written. -/
  text : String
  /-- Does the expression match a window? -/
  accepts : List Char → Bool
  mode : MatchMode

namespace Pattern

/-- The text of the expression that has to match a whole window. -/
def anchored (text : String) : String := "^(?:" ++ text ++ ")$"

/-- The pattern of an expression and a mode. What expressions there are, and which windows
they match, is up to `compile`: it gets the text and answers a test, or none if the text
denotes no expression. Nothing else here depends on it. -/
def build (text : String) (mode : MatchMode)
    (compile : String → Option (List Char → Bool) := Expression.test?) :
    Except RuleError Pattern := do
  let mode ← mode.validate
  match compile (anchored text) with
  | some accepts => return ⟨text, accepts, mode⟩
  | none => throw .invalidPattern

def isNullable (r : Pattern) : Bool := r.mode.isNullable (r.accepts [])

/-- An atom over the window that `mode` finds with a test of windows. -/
def recognizeWith (mode : MatchMode) (accepts : List Char → Bool) (src : Source) :
    NodeRecognizer := fun path p =>
  .check (distance p src.size) fun available =>
    match mode.length? (fun n => accepts (src.window ⟨p, n⟩)) available with
    | some n => .success (.atom path.symbol ⟨p, n⟩) ((src.advance? p n).getD p)
    | none => .failure (.failed path p) p

def recognize (r : Pattern) (src : Source) : NodeRecognizer :=
  recognizeWith r.mode r.accepts src

end Pattern

end ConcreteSyntax
