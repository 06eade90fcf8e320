import ConcreteSyntax.Grammar.Analysis

/-!
# Violations

A grammar that breaks a rule is not accepted. Everything wrong with it is
reported at once, each kind of violation with all the symbols it affects.
-/

namespace ConcreteSyntax

/-- One kind of problem with a grammar. -/
inductive Violation where
  /-- The root symbol names no production. -/
  | missingRoot (root : String)
  /-- Several productions have one symbol. -/
  | duplicateProductions (symbols : List String)
  /-- Productions refer to symbols that name none: pairs of both. -/
  | unknownReferences (references : List (String × String))
  /-- Productions are not reached from the root. -/
  | unreachableProductions (symbols : List String)
  /-- Productions recognize nothing, since every way through them recurs. -/
  | nonTerminating (symbols : List String)
  /-- Productions call themselves without reading a token first. -/
  | unboundedRecursion (symbols : List String)
deriving DecidableEq, Repr

def Violation.message : Violation → String
  | .missingRoot root => s!"Root symbol '{root}' has no production"
  | .duplicateProductions symbols =>
    "Duplicate productions: " ++ ", ".intercalate symbols
  | .unknownReferences references =>
    "Unknown symbol references: " ++
      ", ".intercalate (references.map fun r => s!"'{r.2}' in '{r.1}'")
  | .unreachableProductions symbols =>
    "Productions unreachable from the root: " ++ ", ".intercalate symbols
  | .nonTerminating symbols =>
    "Productions which never terminate: " ++ ", ".intercalate symbols
  | .unboundedRecursion symbols =>
    "Productions which recurse without consuming input: " ++ ", ".intercalate symbols

namespace Grammar

/-- The references of all productions to undefined symbols, none twice. -/
def unknownReferences (g : Grammar) : List (String × String) :=
  (g.productions.flatMap fun r =>
    (r.rule.references.filter fun s => !g.defines s).map fun s => (r.symbol, s)).eraseDups

/-- Does a production refer to undefined symbols and to nothing else? -/
def refersOnlyToUnknown (g : Grammar) (r : Production) : Bool :=
  !r.rule.references.isEmpty && r.rule.references.all fun s => !g.defines s

def unreachable (g : Grammar) : List String :=
  let reachable := g.reachable
  g.symbols.filter fun s => !reachable.contains s

/-- The symbols of productions that are not productive, except where unknown
references are all that a production has. -/
def nonTerminating (g : Grammar) : List String :=
  let productive := g.productive
  (g.productions.filter fun r =>
    !productive.contains r.symbol && !g.refersOnlyToUnknown r).map Production.symbol

/-- A kind of violation, unless nothing is affected by it. -/
def violationUnlessEmpty {α : Type} (kind : List α → Violation) (affected : List α) :
    List Violation :=
  if affected.isEmpty then [] else [kind affected]

/-- All violations of a grammar in which no symbol is defined twice. -/
def violations (g : Grammar) : List Violation :=
  (if g.defines g.root then [] else [.missingRoot g.root]) ++
  violationUnlessEmpty .unknownReferences g.unknownReferences ++
  (if g.defines g.root then violationUnlessEmpty .unreachableProductions g.unreachable
    else []) ++
  violationUnlessEmpty .nonTerminating g.nonTerminating ++
  violationUnlessEmpty .unboundedRecursion g.leftRecursive

def violationsOf (root : String) (productions : List Production) : List Violation :=
  violationUnlessEmpty .duplicateProductions (repeated [] [] productions) ++
  (ofProductions root productions).violations

/-- The grammar of a root and a list of productions, or all that is wrong with
them. -/
def build (root : String) (productions : List Production) :
    Except (List Violation) Grammar :=
  match violationsOf root productions with
  | [] => .ok (ofProductions root productions)
  | vs => .error vs

/-- The wording of the reasons for which a grammar is not accepted. -/
def refusalMessage (vs : List Violation) : String :=
  "Invalid grammar:" ++ String.join (vs.map fun v => "\n  " ++ v.message)

end Grammar

end ConcreteSyntax
