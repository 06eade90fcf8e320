import ConcreteSyntax.Cursor
import ConcreteSyntax.Grammar

/-!
# Languages

A language is a grammar with validators registered for some symbols. Its
productions refer to each other in circles, so their recognizers are given in
stages: at stage 0 every production is unfinished, and at stage `n + 1` the rules
are recognized with the productions of stage `n`. In a grammar without violations
no production calls itself again before a token is read, so calls are nested no
deeper than there are pairs of a production and a position, and a stage computed
from these numbers alone is late enough.
-/

namespace ConcreteSyntax

/-- A grammar and the validators registered for its symbols. -/
structure Language where
  grammar : Grammar
  validators : String → Option Validator

namespace Language

/-- The language of a grammar, with no validators but those of its productions. -/
def ofGrammar (g : Grammar) : Language := ⟨g, fun _ => none⟩

/-- The language with a validator registered for a symbol, in place of any that was
registered before. -/
def withValidator (l : Language) (symbol : String) (v : Validator) : Language :=
  { l with validators := fun s => if s = symbol then some v else l.validators s }

/-- The production with a symbol, under a path that names it already, when its
rule is recognized in `scope`. An unknown symbol fails. -/
def production (l : Language) (scope : Scope) (symbol : String) : NodeRecognizer :=
  match l.grammar.find? symbol with
  | some r => r.recognizer (l.validators symbol) scope
  | none => fun path p => .failure (.failed path p) p

/-- What a rule sees of the language at a stage. The stage before is entered only
when a production is called for. -/
def scope (l : Language) (src : Source) : Nat → Scope
  | 0 => ⟨src, 0, fun _ _ _ => .unfinished⟩
  | n + 1 => ⟨src, n + 1, fun symbol path p => l.production (l.scope src n) symbol path p⟩

/-- A stage at which no recognition is unfinished. -/
def stage (l : Language) (src : Source) : Nat :=
  (l.grammar.productions.length + 1) * (src.size + 2)

/-- What a rule sees of the language. -/
def fullScope (l : Language) (src : Source) : Scope := l.scope src (l.stage src)

/-- The production with a symbol, recognized as the outermost one. -/
def recognizeAt (l : Language) (src : Source) (symbol : String) (position : Nat) :
    Reply Diagnosis Node :=
  (l.fullScope src).production symbol (.root symbol) position

/-- The production with a symbol, recognized below a path. -/
def recognizeBelow (l : Language) (src : Source) (symbol : String) : NodeRecognizer :=
  fun path p => (l.fullScope src).production symbol (path.child symbol) p

/-- A production recognized from the start of a text, over any part of it. -/
def recognize (l : Language) (symbol text : String) : Reply Diagnosis Node :=
  l.recognizeAt (Source.ofString text) symbol 0

/-- The root production recognized from the start of a text. -/
def recognizeRoot (l : Language) (text : String) : Reply Diagnosis Node :=
  l.recognize l.grammar.root text

/-- A production recognized over the whole of a text. If it ends early, tokens were
committed to it, and recognition stops at the first token not read. -/
def recognizeAll (l : Language) (symbol text : String) : Reply Diagnosis Node :=
  let src := Source.ofString text
  (l.recognizeAt src symbol 0).bind fun node q =>
    if src.size ≤ q then .success node q
    else .failure (.partway (.root symbol) 0 q) q

end Language

end ConcreteSyntax
