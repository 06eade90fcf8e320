import ConcreteSyntax.Grammar

/-!
# Static properties of grammars

Two properties of productions are least fixed points: being *nullable*, able to
succeed without reading a token, and being *productive*, able to succeed at all.
Each is computed by rounds over all productions, from the assumption that none
has it. Two relations between productions matter: a production *refers* to others
anywhere in its rule, and it *calls* others *on the left* before it has read any
token. The symbols reached through a relation are collected in rounds as well.
-/

namespace ConcreteSyntax

/-! ## References -/

mutual

/-- The symbols to which a kind of element refers. -/
def Kind.references : Kind → List String
  | .reference symbol => [symbol]
  | .terminal _ => []
  | .group _ elements => Element.references elements

def Element.references : List Element → List String
  | [] => []
  | .mk kind _ :: rest => kind.references ++ Element.references rest

end

def Rule.references : Rule → List String
  | .terminal _ => []
  | .composite r => Element.references r.group.elements

/-! ## Properties of rules, given which symbols have them -/

/-- Can a group succeed without reading a token? It is given which of its elements
can, and how many are optional among how many. A set takes only elements that
read something, so enough of them have to be optional. -/
def Aggregation.isNullable (a : Aggregation) (elements : List Bool)
    (optional total : Nat) : Bool :=
  match a with
  | .sequence => elements.all id
  | .choice => elements.any id
  | .set minimum => decide (Group.requirement minimum total ≤ optional)

/-- Can a group succeed on some input? It is given which of its elements can. -/
def Aggregation.isProductive (a : Aggregation) (elements : List Bool) : Bool :=
  match a with
  | .sequence => elements.all id
  | .choice => elements.any id
  | .set minimum =>
    decide (Group.requirement minimum elements.length ≤ (elements.filter id).length)

mutual

/-- Can one occurrence succeed without reading a token? -/
def Kind.isNullable (nullable : String → Bool) : Kind → Bool
  | .reference symbol => nullable symbol
  | .terminal rule => rule.isNullable
  | .group aggregation elements =>
    aggregation.isNullable (Element.nullability nullable elements)
      ((elements.filter Element.isOptional).length) elements.length

/-- Which of the elements can succeed without reading a token? -/
def Element.nullability (nullable : String → Bool) : List Element → List Bool
  | [] => []
  | .mk kind cardinality :: rest =>
    (cardinality.min == 0 || kind.isNullable nullable) :: Element.nullability nullable rest

end

def Element.isNullable (nullable : String → Bool) (e : Element) : Bool :=
  e.isOptional || e.kind.isNullable nullable

def Rule.isNullable (nullable : String → Bool) : Rule → Bool
  | .terminal rule => rule.isNullable
  | .composite r => r.group.toKind.isNullable nullable

mutual

/-- Can one occurrence succeed on some input? -/
def Kind.isProductive (productive : String → Bool) : Kind → Bool
  | .reference symbol => productive symbol
  | .terminal _ => true
  | .group aggregation elements =>
    aggregation.isProductive (Element.productivity productive elements)

def Element.productivity (productive : String → Bool) : List Element → List Bool
  | [] => []
  | .mk kind cardinality :: rest =>
    (cardinality.min == 0 || kind.isProductive productive) ::
      Element.productivity productive rest

end

def Rule.isProductive (productive : String → Bool) : Rule → Bool
  | .terminal _ => true
  | .composite r => r.group.toKind.isProductive productive

mutual

/-- The symbols a kind of element may call before a token is read. -/
def Kind.leftCalls (nullable : String → Bool) : Kind → List String
  | .reference symbol => [symbol]
  | .terminal _ => []
  | .group aggregation elements =>
    Element.leftCalls nullable (aggregation == .sequence) elements

/-- The symbols elements may call before a token is read. If they are `ordered`,
none is called behind an element that has to read one. -/
def Element.leftCalls (nullable : String → Bool) (ordered : Bool) :
    List Element → List String
  | [] => []
  | .mk kind cardinality :: rest =>
    kind.leftCalls nullable ++
      if ordered && !(Element.mk kind cardinality).isNullable nullable then []
      else Element.leftCalls nullable ordered rest

end

def Rule.leftCalls (nullable : String → Bool) : Rule → List String
  | .terminal _ => []
  | .composite r => r.group.toKind.leftCalls nullable

namespace Grammar

/-! ## Rounds -/

/-- The symbols of productions whose rules have a property, given the symbols that
are known to have it. -/
def round (g : Grammar) (property : (String → Bool) → Rule → Bool)
    (known : List String) : List String :=
  (g.productions.filter fun r => property known.contains r.rule).map Production.symbol

def rounds (g : Grammar) (property : (String → Bool) → Rule → Bool) : Nat → List String
  | 0 => []
  | n + 1 => g.round property (g.rounds property n)

/-- The symbols that have a property by the least assumption. Every round but the
last adds a production, so there are no more rounds than productions. -/
def leastHaving (g : Grammar) (property : (String → Bool) → Rule → Bool) : List String :=
  g.rounds property g.productions.length

/-- The symbols of productions that can succeed without reading a token. -/
def nullable (g : Grammar) : List String := g.leastHaving Rule.isNullable

/-- The symbols of productions that can succeed on some input. -/
def productive (g : Grammar) : List String := g.leastHaving Rule.isProductive

/-! ## Symbols reached -/

/-- The symbols related to one symbol, as far as they are defined. -/
def successors (g : Grammar) (related : Rule → List String) (symbol : String) :
    List String :=
  match g.find? symbol with
  | some r => (related r.rule).filter g.defines
  | none => []

/-- All that is reached from `seen` in `n` rounds, of which only `frontier` has not
been looked behind yet. -/
def spread (g : Grammar) (related : Rule → List String) :
    Nat → (seen frontier : List String) → List String
  | 0, seen, _ => seen
  | n + 1, seen, frontier =>
    let fresh :=
      ((frontier.flatMap (g.successors related)).filter fun s => !seen.contains s).eraseDups
    if fresh.isEmpty then seen else g.spread related n (seen ++ fresh) fresh

/-- The defined symbols that are reached from some of them. -/
def closure (g : Grammar) (related : Rule → List String) (start : List String) :
    List String :=
  let start := (start.filter g.defines).eraseDups
  g.spread related g.productions.length start start

/-- The symbols of productions reached from the root through references. -/
def reachable (g : Grammar) : List String := g.closure Rule.references [g.root]

/-- The symbols of productions that can call themselves before a token is read. -/
def leftRecursive (g : Grammar) : List String :=
  let nullable := g.nullable
  let related : Rule → List String := Rule.leftCalls nullable.contains
  g.symbols.filter fun s => (g.closure related (g.successors related s)).contains s

end Grammar

end ConcreteSyntax
