/-!
# Rules that cannot be built

A rule is checked when it is built, not when it is used. Each constructor names
one thing that makes a rule meaningless.
-/

namespace ConcreteSyntax

/-- Why a rule cannot be built. -/
inductive RuleError where
  | emptyLiteral
  /-- A start or end delimiter without tokens. -/
  | emptyDelimiter
  /-- A legal or illegal sequence, or an escape, without tokens. -/
  | emptySequence
  /-- Delimited content with neither an end nor anything illegal never ends. -/
  | unterminatedContent
  /-- An escape of an end delimiter that is not there. -/
  | escapeWithoutEnd
  /-- A range of characters that ends before it starts. -/
  | invalidRange (low high : Char)
  | invalidPattern
  /-- A window of no admissible length. -/
  | invalidMatchWindow (min max : Nat)
  | emptyGroup
  /-- A set that requires no element, or more than it has. -/
  | setMinimumOutOfRange (min elements : Nat)
  /-- A threshold that is met before anything is recognized. -/
  | zeroThreshold
deriving DecidableEq, Repr

def RuleError.message : RuleError → String
  | .emptyLiteral => "Literal must not be empty"
  | .emptyDelimiter => "Delimiters must not be empty"
  | .emptySequence => "Sequences must not be empty"
  | .unterminatedContent =>
    "Delimited content needs an end delimiter, an illegal sequence, or an illegal range"
  | .escapeWithoutEnd => "End delimiter escape given without an end delimiter"
  | .invalidRange low high => s!"Invalid character range '{low}-{high}'"
  | .invalidPattern => "Invalid pattern"
  | .invalidMatchWindow min max => s!"Invalid pattern match window \x7b{min},{max}\x7d"
  | .emptyGroup => "Groups must contain at least one element"
  | .setMinimumOutOfRange min elements =>
    s!"Set minimum recognition count {min} is not in 1..={elements}"
  | .zeroThreshold => "Recognition threshold must be at least 1"

/-- Why a cardinality cannot be built. -/
inductive CardinalityError where
  /-- Nothing may occur at all. -/
  | zeroMaximum
  /-- More must occur than may. -/
  | maxBelowMin (min max : Nat)
deriving DecidableEq, Repr

def CardinalityError.message : CardinalityError → String
  | .zeroMaximum => "Cardinality maximum must be at least 1"
  | .maxBelowMin min max => s!"Cardinality maximum {max} is below its minimum {min}"

end ConcreteSyntax
