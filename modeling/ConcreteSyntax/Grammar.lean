import ConcreteSyntax.Production

/-!
# Grammars

A grammar is a list of productions and the symbol to start at. A symbol names the
first production that has it. Nothing here asks whether a grammar makes sense;
that is the business of its violations.
-/

namespace ConcreteSyntax

/-- Productions and a root symbol. -/
structure Grammar where
  root : String
  productions : List Production

namespace Grammar

def symbols (g : Grammar) : List String := g.productions.map Production.symbol

def find? (g : Grammar) (symbol : String) : Option Production :=
  g.productions.find? fun r => r.symbol == symbol

theorem symbol_of_find? {g : Grammar} {symbol : String} {r : Production}
    (h : g.find? symbol = some r) : r.symbol = symbol := by
  simpa using List.find?_some h

def defines (g : Grammar) (symbol : String) : Bool := (g.find? symbol).isSome

/-- The productions whose symbol no earlier one has. -/
def firsts : List Production → List Production
  | [] => []
  | r :: rest => r :: (firsts rest).filter fun s => s.symbol != r.symbol

/-- The symbols that more than one production has, in the order in which their
second productions come. `seen` are the symbols of the productions before, and
`found` the ones found to be repeated already. -/
def repeated (seen found : List String) : List Production → List String
  | [] => found
  | r :: rest =>
    if r.symbol ∈ seen then
      if r.symbol ∈ found then repeated seen found rest
      else repeated seen (found ++ [r.symbol]) rest
    else repeated (r.symbol :: seen) found rest

/-- The grammar of these productions, the first of each symbol only. -/
def ofProductions (root : String) (productions : List Production) : Grammar :=
  ⟨root, firsts productions⟩

end Grammar

end ConcreteSyntax
