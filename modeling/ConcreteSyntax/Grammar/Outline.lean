import ConcreteSyntax.Grammar
import ConcreteSyntax.Text.Outline

/-!
# Outlines of grammars

A grammar can be shown with everything its rules are made of. Of a validator it
only shows whether there is one.
-/

namespace ConcreteSyntax

open Text (Outline)

def Cardinality.outline (c : Cardinality) : Outline :=
  .record "Cardinality" [("min", .nat c.min), ("max", .option .nat c.max)]

def CharRange.outline (r : CharRange) : Outline :=
  .record "CharRange" [("low", .char r.low), ("high", .char r.high)]

def RangeSet.outline (s : RangeSet) : Outline := .list (s.toList.map CharRange.outline)

def Literal.outline (l : Literal) : Outline :=
  .record "Literal" [("tokens", .tokens l.tokens), ("case_sensitive", .bool l.caseSensitive)]

def CharClass.outline (k : CharClass) : Outline :=
  .record "CharRanges" [("includes", k.included.outline), ("excludes", k.excluded.outline)]

def Delimited.outline (d : Delimited) : Outline :=
  .record "DelimitedContent" [
    ("start", .tokens d.start),
    ("end", .option .tokens d.stop),
    ("legal_sequences", .list (d.legalSequences.map .tokens)),
    ("illegal_sequences", .list (d.illegalSequences.map .tokens)),
    ("legal_ranges", d.legalRanges.outline),
    ("illegal_ranges", d.illegalRanges.outline),
    ("end_escape", .option .tokens d.escape),
    ("accepts_empty", .bool d.acceptsEmpty)]

def MatchMode.outline : MatchMode → Outline
  | .within min max => .record "Closed" [("min", .nat min), ("max", .nat max)]
  | .growing tolerance allowEmpty =>
    .record "Open" [("max_mismatch", .nat tolerance), ("allow_empty", .bool allowEmpty)]

/-- The parts of a pattern; its expression as it has to match a whole window. -/
def Pattern.outline (r : Pattern) : Outline :=
  .record "Pattern" [
    ("regex", .tuple "Regex" [.text (Pattern.anchored r.text)]),
    ("source", .text r.text),
    ("mode", r.mode.outline)]

def Terminal.outline : Terminal → Outline
  | .literal r => .tuple "Literal" [r.outline]
  | .charClass r => .tuple "CharRanges" [r.outline]
  | .delimited r => .tuple "DelimitedContent" [r.outline]
  | .endOfInput => .tuple "EndOfInput" [.word "EndOfInput"]
  | .pattern r => .tuple "Pattern" [r.outline]

def Aggregation.outline (a : Aggregation) (elements : List Outline) : Outline :=
  match a with
  | .sequence => .tuple "Sequence" [.record "Sequence" [("elements", .list elements)]]
  | .choice => .tuple "Choice" [.record "Choice" [("elements", .list elements)]]
  | .set minimum =>
    .tuple "Set" [.record "Set" [
      ("elements", .list elements), ("min_recognized", .option .nat minimum)]]

mutual

/-- What an element is about. -/
def Kind.outline : Kind → Outline
  | .reference symbol => .tuple "Ref" [.text symbol]
  | .terminal rule => .tuple "Atomic" [rule.outline]
  | .group aggregation elements =>
    .tuple "Group" [aggregation.outline (Element.outlines elements)]

def Element.outlines : List Element → List Outline
  | [] => []
  | .mk kind cardinality :: rest =>
    .record "Element" [("kind", kind.outline), ("cardinality", cardinality.outline)] ::
      Element.outlines rest

end

def Group.outline (g : Group) : Outline := g.aggregation.outline (Element.outlines g.elements)

def Rule.outline : Rule → Outline
  | .terminal rule => .tuple "Atomic" [rule.outline]
  | .composite r =>
    .tuple "Composite" [.record "CompositeRule" [
      ("group", r.group.outline), ("threshold", .option .nat r.threshold)]]

def Production.outline (r : Production) : Outline :=
  .record "Production" [
    ("symbol", .text r.symbol),
    ("rule", r.rule.outline),
    ("validator", .bool r.validator.isSome)]

def Grammar.outline (g : Grammar) : Outline :=
  .record "Grammar" [
    ("root", .text g.root),
    ("productions", .list (g.productions.map Production.outline))]

end ConcreteSyntax
