import ConcreteSyntax.Source

/-!
# Cursors

A cursor is a position in an input. Reading moves it forward; a request that
finds too few tokens answers `none` and leaves it where it is. It can be placed
anywhere within the input, and nowhere else.
-/

namespace ConcreteSyntax

/-- A place to read from: the next token is the one at `position`. -/
structure Cursor where
  source : Source
  position : Nat

namespace Cursor

/-- The cursor before the first token of a text. -/
def ofString (text : String) : Cursor := ⟨Source.ofString text, 0⟩

def atEnd (c : Cursor) : Bool := decide (c.source.size ≤ c.position)

def remaining (c : Cursor) : List Char := c.source.remaining c.position

/-- The next token, left unread. -/
def peek (c : Cursor) : Option Char := c.source.token? c.position

/-- The next `n` tokens, left unread, or `none` if fewer remain. -/
def peekMany (c : Cursor) (n : Nat) : Option (List Char) :=
  if n ≤ c.source.size - c.position then some (c.source.slice c.position (c.position + n))
  else none

def next (c : Cursor) : Option Char × Cursor :=
  match c.peek with
  | some t => (some t, { c with position := c.position + 1 })
  | none => (none, c)

/-- Read `n` tokens, or none at all if fewer remain. -/
def nextMany (c : Cursor) (n : Nat) : Option (List Char) × Cursor :=
  match c.peekMany n with
  | some ts => (some ts, { c with position := c.position + n })
  | none => (none, c)

/-- Place the cursor at `target`, which must lie within the input. -/
def reset (c : Cursor) (target : Nat) : Except Fault Cursor :=
  (c.source.seek target).map fun p => { c with position := p }

/-- The segment from `start` up to the cursor. -/
def segmentFrom (c : Cursor) (start : Nat) : Except Fault Segment :=
  Segment.ofBounds start c.position

/-- Line and column of the next token. -/
def lineColumn (c : Cursor) : Nat × Nat := c.source.lineColumn c.position

end Cursor

end ConcreteSyntax
