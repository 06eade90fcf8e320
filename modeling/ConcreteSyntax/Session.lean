import ConcreteSyntax.Cursor
import ConcreteSyntax.Reply

/-!
# Cursor sessions

A session is a cursor together with the checkpoints that are open, the innermost
first. A checkpoint remembers where it was begun; when it is rolled back the
cursor returns there, wherever it went since, and when it is committed the cursor
stays. Checkpoints still open at the end are rolled back.
-/

namespace ConcreteSyntax

/-- A cursor and the positions at which the open checkpoints were begun. -/
structure Session where
  cursor : Cursor
  checkpoints : List Nat

/-- What can be done with a session. -/
inductive Action where
  | peek
  | peekMany (count : Nat)
  | next
  | nextMany (count : Nat)
  | remaining
  | atEnd
  | reset (target : Nat)
  | segmentFrom (start : Nat)
  | lineColumn
  | begin
  /-- Close the innermost checkpoint and stay. -/
  | commit
  /-- Close the innermost checkpoint and return to it. -/
  | rollback
deriving DecidableEq, Repr

/-- What an action answers. -/
inductive Answer where
  | token (token : Option Char)
  | tokens (tokens : Option (List Char))
  | atEnd (flag : Bool)
  | moved
  | segment (segment : Segment)
  | place (line column : Nat)
  | opened (entry : Nat)
  | closed (committed : Bool)
  /-- There was no checkpoint to close. -/
  | noCheckpoint
  | fault (fault : Fault)
deriving DecidableEq, Repr

namespace Session

def ofString (text : String) : Session := ⟨.ofString text, []⟩

def position (s : Session) : Nat := s.cursor.position

/-- The session with its cursor elsewhere, or as it was after a fault. -/
def moveTo (s : Session) (answer : Answer) : Except Fault Cursor → Answer × Session
  | .ok c => (answer, { s with cursor := c })
  | .error f => (.fault f, s)

/-- Close the innermost checkpoint: return to it unless it is committed. -/
def close (s : Session) (committed : Bool) : Answer × Session :=
  match s.checkpoints with
  | [] => (.noCheckpoint, s)
  | entry :: outer =>
    let s : Session := { s with checkpoints := outer }
    if committed then (.closed true, s) else s.moveTo (.closed false) (s.cursor.reset entry)

/-- The answer of an action, and the session after it. -/
def perform (s : Session) : Action → Answer × Session
  | .peek => (.token s.cursor.peek, s)
  | .peekMany n => (.tokens (s.cursor.peekMany n), s)
  | .next =>
    let (token, c) := s.cursor.next
    (.token token, { s with cursor := c })
  | .nextMany n =>
    let (tokens, c) := s.cursor.nextMany n
    (.tokens tokens, { s with cursor := c })
  | .remaining => (.tokens (some s.cursor.remaining), s)
  | .atEnd => (.atEnd s.cursor.atEnd, s)
  | .reset target => s.moveTo .moved (s.cursor.reset target)
  | .segmentFrom start =>
    match s.cursor.segmentFrom start with
    | .ok seg => (.segment seg, s)
    | .error f => (.fault f, s)
  | .lineColumn =>
    let (line, column) := s.cursor.lineColumn
    (.place line column, s)
  | .begin => (.opened s.position, { s with checkpoints := s.position :: s.checkpoints })
  | .commit => s.close true
  | .rollback => s.close false

/-- The sessions after each of several actions, with the answers. -/
def performAll (s : Session) : List Action → List (Answer × Session)
  | [] => []
  | a :: rest =>
    let (answer, s) := s.perform a
    (answer, s) :: s.performAll rest

/-- The session after a recognition that started at its cursor. -/
def after {ε α : Type} (s : Session) : Reply ε α → Session
  | .success _ p => { s with cursor := { s.cursor with position := p } }
  | .failure _ p => { s with cursor := { s.cursor with position := p } }
  | .fault _ => s
  | .unfinished => s

/-- The cursor once these checkpoints are rolled back, the innermost first. -/
def rollbackAll (c : Cursor) : List Nat → Cursor
  | [] => c
  | entry :: outer =>
    match c.reset entry with
    | .ok c => rollbackAll c outer
    | .error _ => rollbackAll c outer

/-- The cursor once all open checkpoints are rolled back. -/
def finish (s : Session) : Cursor := rollbackAll s.cursor s.checkpoints

end Session

end ConcreteSyntax
