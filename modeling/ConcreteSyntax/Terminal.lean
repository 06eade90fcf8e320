import ConcreteSyntax.Terminal.CharClass
import ConcreteSyntax.Terminal.Delimited
import ConcreteSyntax.Terminal.Literal
import ConcreteSyntax.Terminal.Pattern

/-!
# Terminals

A terminal is an atomic rule: it reads tokens itself and refers to nothing else.
-/

namespace ConcreteSyntax

/-- An atomic rule. -/
inductive Terminal where
  | literal (rule : Literal)
  | charClass (rule : CharClass)
  | delimited (rule : Delimited)
  /-- Recognizes, with an empty atom, that no token is left. -/
  | endOfInput
  | pattern (rule : Pattern)

namespace Terminal

/-- The name of the kind, from which atoms of rules without a symbol are named. -/
def kindName : Terminal → String
  | literal _ => "Literal"
  | charClass _ => "Ranges"
  | delimited _ => "Delimited"
  | endOfInput => "EOF"
  | pattern _ => "Pattern"

/-- The symbol of the atoms of a rule that has none of its own. -/
def inlineSymbol (t : Terminal) : String := "@" ++ t.kindName

def isNullable : Terminal → Bool
  | literal _ | charClass _ | delimited _ => false
  | endOfInput => true
  | pattern r => r.isNullable

/-- An empty atom at the end of the input. -/
def recognizeEnd (src : Source) : NodeRecognizer := fun path p =>
  if src.size ≤ p then .success (.atom path.symbol (.empty p)) p
  else .failure (.failed path p) p

/-- An atom, by the rule's own reading. -/
def recognize (src : Source) : Terminal → NodeRecognizer
  | literal r => r.recognize src
  | charClass r => r.recognize src
  | delimited r => r.recognize src
  | endOfInput => recognizeEnd src
  | pattern r => r.recognize src

end Terminal

end ConcreteSyntax
