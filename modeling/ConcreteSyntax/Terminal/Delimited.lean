import ConcreteSyntax.CharRange
import ConcreteSyntax.Recognizer

/-!
# Delimited content

A start delimiter, content, and possibly an end delimiter: a string, a comment,
the body of a tag. The content is read in one of two ways. Without legal
sequences it is read token by token, up to a token outside of the legal ranges
or one that completes an illegal sequence, which is given back. With legal
sequences it is read sequence by sequence, always the longest that comes next,
up to a place where none comes next or where one would bring in an illegal token
or sequence. The end delimiter is illegal content. What lies within an escape of
the end delimiter is never illegal.
-/

namespace ConcreteSyntax

/-- A rule for delimited content. -/
structure Delimited where
  start : List Char
  stop : Option (List Char)
  /-- The longest first, so that the first that comes next is the longest. -/
  legalSequences : List (List Char)
  /-- The end delimiter among them, if there is one. -/
  illegalSequences : List (List Char)
  legalRanges : RangeSet
  illegalRanges : RangeSet
  escape : Option (List Char)
  acceptsEmpty : Bool
  start_ne_nil : start ≠ []
  legal_ne_nil : ∀ s ∈ legalSequences, s ≠ []
  illegal_ne_nil : ∀ s ∈ illegalSequences, s ≠ []
  stop_mem_illegal : ∀ e ∈ stop, e ∈ illegalSequences

namespace Delimited

/-- What a rule for delimited content is built from. -/
structure Options where
  start : String
  stop : Option String
  legalSequences : List String
  illegalSequences : List String
  legalRanges : List CharRange
  illegalRanges : List CharRange
  escape : Option String
  acceptsEmpty : Bool

/-- A list with each run of equal neighbours made one. -/
def dropRepeats : List (List Char) → List (List Char)
  | [] => []
  | [s] => [s]
  | s :: t :: rest => if s = t then dropRepeats (t :: rest) else s :: dropRepeats (t :: rest)

theorem mem_of_mem_dropRepeats {s : List Char} {ss : List (List Char)}
    (h : s ∈ dropRepeats ss) : s ∈ ss := by
  fun_induction dropRepeats ss with
  | case1 => exact h
  | case2 => exact h
  | case3 t rest ih => exact List.mem_cons_of_mem _ (ih h)
  | case4 t u rest _ ih =>
    rcases List.mem_cons.mp h with rfl | h
    · exact List.mem_cons_self
    · exact List.mem_cons_of_mem _ (ih h)

/-- Sequences from the longest to the shortest, those of one length in the order
given, and none twice in a row. -/
def longestFirst (sequences : List (List Char)) : List (List Char) :=
  dropRepeats (sequences.mergeSort fun s t => decide (t.length ≤ s.length))

theorem mem_of_mem_longestFirst {s : List Char} {ss : List (List Char)}
    (h : s ∈ longestFirst ss) : s ∈ ss :=
  List.mem_mergeSort.mp (mem_of_mem_dropRepeats h)

/-- Illegal sequences with the end delimiter, if there is one, among them. -/
def withStop (stop : Option (List Char)) (illegal : List (List Char)) : List (List Char) :=
  match stop with
  | some e => if e ∈ illegal then illegal else illegal ++ [e]
  | none => illegal

theorem mem_withStop {stop : Option (List Char)} {illegal : List (List Char)} {s : List Char} :
    s ∈ withStop stop illegal ↔ s ∈ illegal ∨ s ∈ stop := by
  cases stop with
  | none => simp [withStop]
  | some e =>
    by_cases h : e ∈ illegal
    · have : e = s → s ∈ illegal := fun he => he ▸ h
      simpa [withStop, h] using this
    · simp [withStop, h, eq_comm]

def build (o : Options) : Except RuleError Delimited :=
  let legal := o.legalSequences.map String.toList
  let illegal := o.illegalSequences.map String.toList
  let stop := o.stop.map String.toList
  let escape := o.escape.map String.toList
  if hs : o.start.toList = [] then .error .emptyDelimiter
  else if he : stop = some [] then .error .emptyDelimiter
  else if stop = none ∧ escape ≠ none then .error .escapeWithoutEnd
  else if stop = none ∧ illegal = [] ∧ o.illegalRanges = [] then .error .unterminatedContent
  else if hl : [] ∈ legal then .error .emptySequence
  else if hi : [] ∈ illegal ∨ escape = some [] then .error .emptySequence
  else .ok {
    start := o.start.toList
    stop
    legalSequences := longestFirst legal
    illegalSequences := withStop stop illegal
    legalRanges := .ofList o.legalRanges
    illegalRanges := .ofList o.illegalRanges
    escape
    acceptsEmpty := o.acceptsEmpty
    start_ne_nil := hs
    legal_ne_nil := fun _ h hs => hl (hs ▸ mem_of_mem_longestFirst h)
    illegal_ne_nil := fun _ h hs =>
      (mem_withStop.mp (hs ▸ h)).elim (fun h => hi (.inl h)) he
    stop_mem_illegal := fun _ h => mem_withStop.mpr (.inr h) }

/-- May content hold this token? -/
def legalToken (d : Delimited) (c : Char) : Bool :=
  RangeSet.admits d.legalRanges d.illegalRanges c

/-- Does the escape cover the `length` tokens before `position`? It may reach
beyond `position`, but not to before `contentStart`. -/
def isEscaped (d : Delimited) (src : Source) (contentStart position length : Nat) :
    Except Fault Bool :=
  match d.escape with
  | none => .ok false
  | some esc =>
    if esc.length < length then .ok false
    else do
      let highest ← distance length position
      let spare ← distance length esc.length
      let lowest := max (highest - spare) contentStart
      return (List.range' lowest (highest + 1 - lowest)).any fun s =>
        decide (position ≤ s + esc.length) &&
          match src.slice? s (s + esc.length) with
          | .ok tokens => tokens == esc
          | .error _ => false

/-- The length of the first of some sequences with which the content up to
`position` ends, unless the escape covers that occurrence. -/
def suffixAmong (d : Delimited) (src : Source) (contentStart position : Nat) :
    List (List Char) → Except Fault (Option Nat)
  | [] => .ok none
  | s :: rest =>
    if src.endsWith contentStart position s then do
      if ← d.isEscaped src contentStart position s.length then
        d.suffixAmong src contentStart position rest
      else return some s.length
    else d.suffixAmong src contentStart position rest

/-- The length of the illegal sequence that the content up to `position` ends
with, if it does. -/
def illegalSuffix (d : Delimited) (src : Source) (contentStart position : Nat) :
    Except Fault (Option Nat) := do
  src.within? contentStart position
  d.suffixAmong src contentStart position d.illegalSequences

/-- The end of the content, read token by token; the tokens left stand at the
position. -/
def readTokens (d : Delimited) (src : Source) (contentStart : Nat) :
    List Char → Nat → Except Fault Nat
  | [], p => .ok p
  | c :: rest, p =>
    if d.legalToken c then do
      match ← d.illegalSuffix src contentStart (p + 1) with
      | some length => src.seek (← distance length (p + 1))
      | none => d.readTokens src contentStart rest (p + 1)
    else .ok p

/-- Would any of the next `count` tokens complete an illegal sequence? -/
def bringsIllegal (d : Delimited) (src : Source) (contentStart : Nat) :
    Nat → Nat → Except Fault Bool
  | 0, _ => .ok false
  | count + 1, p => do
    match ← d.illegalSuffix src contentStart (p + 1) with
    | some _ => return true
    | none => d.bringsIllegal src contentStart count (p + 1)

/-- The end of the content, read sequence by sequence. The first argument bounds
the number of sequences: each of them takes a token. -/
def readSequences (d : Delimited) (src : Source) (contentStart : Nat) :
    Nat → Nat → Except Fault Nat
  | 0, p => .ok p
  | left + 1, p =>
    match d.legalSequences.find? (src.comesNext p) with
    | none => .ok p
    | some s =>
      if s.all d.legalToken then do
        if ← d.bringsIllegal src contentStart s.length p then return p
        else d.readSequences src contentStart left ((src.advance? p s.length).getD p)
      else .ok p

/-- The end of the content that starts at `contentStart`. -/
def readContent (d : Delimited) (src : Source) (contentStart : Nat) : Except Fault Nat :=
  if d.legalSequences.isEmpty then
    d.readTokens src contentStart (src.remaining contentStart) contentStart
  else d.readSequences src contentStart (src.size - contentStart) contentStart

/-- An atom over the content. Once the start delimiter is read, tokens are
committed. -/
def recognize (d : Delimited) (src : Source) : NodeRecognizer := fun path p =>
  Reply.restoring src p <|
    match src.expect? p d.start with
    | none => .failure (.failed path p) p
    | some contentStart =>
      .check (d.readContent src contentStart) fun contentStop =>
      .check (Segment.ofBounds contentStart contentStop) fun content =>
        if content.isEmpty && !d.acceptsEmpty then
          .check (distance p contentStart) fun length =>
            .failure (.partway path p length) contentStop
        else match d.stop with
          | none => .success (.atom path.symbol content) contentStop
          | some stop =>
            match src.expect? contentStop stop with
            | some q => .success (.atom path.symbol content) q
            | none => .check (distance p contentStop) fun length =>
              .failure (.partway path p length) contentStop

end Delimited

end ConcreteSyntax
