/-!
# Symbol paths

A path names the symbols under recognition, from the one a recognition started
at down to the innermost. Paths serve diagnoses only: no rule decides anything
by one.
-/

namespace ConcreteSyntax

/-- A nonempty chain of symbols. -/
inductive Path where
  /-- The symbol a recognition started at. -/
  | root (symbol : String)
  /-- A path prolonged by the symbol below it. -/
  | child (parent : Path) (symbol : String)
deriving DecidableEq, Repr

namespace Path

def symbol : Path → String
  | root s => s
  | child _ s => s

/-- The path without its innermost symbol, if one is left. -/
def parent? : Path → Option Path
  | root _ => none
  | child p _ => some p

def depth : Path → Nat
  | root _ => 1
  | child p _ => p.depth + 1

def symbols : Path → List String
  | root s => [s]
  | child p s => p.symbols ++ [s]

/-- The path prolonged by several symbols, the first of them outermost. -/
def extend (p : Path) (below : List String) : Path := below.foldl child p

/-- The path with these symbols below `outermost`. -/
def ofSymbols (outermost : String) (below : List String) : Path := (root outermost).extend below

/-- The paths that enclose this one, the nearest first. -/
def ancestors : Path → List Path
  | root _ => []
  | child p _ => p :: p.ancestors

/-- The written form: the symbols, separated by slashes. -/
def toString (p : Path) : String := "/".intercalate p.symbols

instance : ToString Path := ⟨toString⟩

theorem length_symbols (p : Path) : p.symbols.length = p.depth := by
  induction p with
  | root _ => rfl
  | child p s ih => simp [symbols, depth, ih]

end Path

end ConcreteSyntax
