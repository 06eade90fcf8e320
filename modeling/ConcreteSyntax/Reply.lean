import ConcreteSyntax.Source

/-!
# Replies

A recognition answers with what it recognized or with why it did not, and in
both cases with the position it leaves the cursor at: that an unsuccessful one
puts the cursor back is a property of recognizers, not of this type. Two further
answers are kept apart from both. A *fault* is a request outside its domain, and
*unfinished* is the answer of a recognition whose bound on the number of steps
was too small.
-/

namespace ConcreteSyntax

/-- The answer of a recognition. -/
inductive Reply (ε α : Type) where
  /-- Something was recognized. -/
  | success (value : α) (position : Nat)
  /-- Nothing was recognized. -/
  | failure (error : ε) (position : Nat)
  /-- A request was made outside its domain. -/
  | fault (fault : Fault)
  /-- The bound on the number of steps was too small. -/
  | unfinished
deriving Repr

namespace Reply

variable {ε ε' α β : Type}

/-- Go on from what was recognized, at the position after it. -/
def bind (r : Reply ε α) (next : α → Nat → Reply ε β) : Reply ε β :=
  match r with
  | success v p => next v p
  | failure e p => failure e p
  | fault f => fault f
  | unfinished => unfinished

/-- Go on with a checked request. -/
def check (request : Except Fault β) (next : β → Reply ε α) : Reply ε α :=
  match request with
  | .ok b => next b
  | .error f => fault f

def map (view : α → β) : Reply ε α → Reply ε β
  | success v p => success (view v) p
  | failure e p => failure e p
  | fault f => fault f
  | unfinished => unfinished

def mapFailure (view : ε → ε') : Reply ε α → Reply ε' α
  | success v p => success v p
  | failure e p => failure (view e) p
  | fault f => fault f
  | unfinished => unfinished

/-- Place the cursor at `entry` again if nothing was recognized. -/
def restoring (src : Source) (entry : Nat) : Reply ε α → Reply ε α
  | failure e _ => check (src.seek entry) fun p => failure e p
  | r => r

@[simp] theorem bind_success (v : α) (p : Nat) (next : α → Nat → Reply ε β) :
    (success v p).bind next = next v p := rfl

@[simp] theorem bind_failure (e : ε) (p : Nat) (next : α → Nat → Reply ε β) :
    (failure e p).bind next = failure e p := rfl

@[simp] theorem bind_fault (f : Fault) (next : α → Nat → Reply ε β) :
    (fault f).bind next = fault f := rfl

@[simp] theorem bind_unfinished (next : α → Nat → Reply ε β) :
    unfinished.bind next = unfinished := rfl

@[simp] theorem check_ok (b : β) (next : β → Reply ε α) : check (.ok b) next = next b := rfl

@[simp] theorem check_error (f : Fault) (next : β → Reply ε α) :
    check (.error f) next = fault f := rfl

end Reply

end ConcreteSyntax
