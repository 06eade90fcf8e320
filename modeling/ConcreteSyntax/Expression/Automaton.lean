import ConcreteSyntax.Expression

/-!
# The room that an automaton takes

An expression can be turned into an automaton that reads the bytes of a text, each
character being one to four of them. The automaton has a part for every token, set
and mark of the expression, and a repetition has one for every occurrence that it
asks for, so that a short expression can need a large automaton. `Expression.room`
says how large, in bytes, for an automaton that reads forward, which also
remembers the numbered groups, and for one that reads backward. The automaton
itself is never built.
-/

namespace ConcreteSyntax

/-- The direction in which an automaton reads. -/
inductive Direction where
  | forward
  | backward
deriving DecidableEq

namespace Automaton

/-- The room of a state. -/
def stateRoom : Nat := 32

/-- The room of each way by which a state with several is left over a byte. -/
def byteRoom : Nat := 8

/-- The room of each way by which a state with several is left over nothing. -/
def jumpRoom : Nat := 4

/-- A way over the bytes of characters: each byte from a range of its own. -/
abbrev BytePath := List (Nat × Nat)

/-- The numbers from `low` to `high`, written in digits to the base 64 of which
`below` follow the first one, as paths that together make up just these numbers.
The first digit is written as a byte from `mark` on, all others from `0x80` on. -/
def digitPaths : (below mark low high : Nat) → List BytePath
  | 0, mark, low, high => [[(mark + low, mark + high)]]
  | below + 1, mark, low, high =>
    let unit := 64 ^ (below + 1)
    let under (digit low high : Nat) : List BytePath :=
      (digitPaths below 0x80 low high).map ((mark + digit, mark + digit) :: ·)
    if low / unit = high / unit then under (low / unit) (low % unit) (high % unit)
    else
      let head := if low % unit = 0 then [] else under (low / unit) (low % unit) (unit - 1)
      let tail := if high % unit = unit - 1 then [] else under (high / unit) 0 (high % unit)
      let first := (low + unit - 1) / unit
      let stop := (high + 1) / unit
      let whole := if first < stop then
        [(mark + first, mark + stop - 1) :: List.replicate (below + 1) (0x80, 0xbf)] else []
      head ++ whole ++ tail

/-- The code points whose characters have equally many bytes: the number of bytes
after the first, the mark of the first, and the first and last code point. -/
def bands : List (Nat × Nat × Nat × Nat) :=
  [(0, 0, 0, 0x7f), (1, 0xc0, 0x80, 0x7ff), (2, 0xe0, 0x800, 0xd7ff),
    (2, 0xe0, 0xe000, 0xffff), (3, 0xf0, 0x10000, 0x10ffff)]

/-- The paths over the bytes of the characters in a range. -/
def bytePaths (r : CharRange) : List BytePath :=
  bands.flatMap fun (below, mark, first, last) =>
    let low := max r.low.toNat first
    let high := min r.high.toNat last
    if low ≤ high then digitPaths below mark low high else []

/-- All beginnings of some paths but the empty one and the paths themselves. -/
def innerBeginnings (paths : List BytePath) : List BytePath :=
  (paths.flatMap fun path => (List.range (path.length - 1)).map fun n => path.take (n + 1)).eraseDups

/-- What can follow a beginning of some paths. -/
def endings (paths : List BytePath) (beginning : BytePath) : List BytePath :=
  (paths.filter beginning.isPrefixOf).map (List.drop beginning.length)

/-- The room of a set whose characters have these paths. The paths form a tree.
Forward, parts of the tree that are alike are one: a state for every choice of what
can follow, which is left by as many ways as that begins with, and one more at the
end. Backward, every edge of the tree is a state, with one more at either end. -/
def treeRoom (d : Direction) (paths : List BytePath) : Nat :=
  let inner := innerBeginnings paths
  match d with
  | .forward =>
    let choices := (([] :: inner).map (endings paths)).eraseDups
    stateRoom * (choices.length + 1) +
      byteRoom * (choices.flatMap fun rest => (rest.map List.head?).eraseDups).length
  | .backward => stateRoom * (inner.length + paths.length + 2) + jumpRoom * paths.length

/-- The room of a set. One character is read byte by byte, and characters of one
byte by a single state. -/
def setRoom (d : Direction) (set : RangeSet) : Nat :=
  match set.toList with
  | [] => 2 * stateRoom
  | r :: others =>
    if others.isEmpty && r.low == r.high then stateRoom * r.low.utf8Size
    else if (r :: others).all fun r => decide (r.high.toNat < 0x80) then
      2 * stateRoom + byteRoom * (others.length + 1)
    else treeRoom d ((r :: others).flatMap bytePaths)

end Automaton

namespace Expression

open Automaton

/-- Does no occurrence take a token? -/
def isZeroWidth : Expression → Bool
  | empty | anchor _ => true
  | token _ | anyToken | oneOf _ => false
  | group _ body => body.isZeroWidth
  | concat first second => second.isZeroWidth && first.isZeroWidth
  | either left right => right.isZeroWidth && left.isZeroWidth
  | repeated body _ max => max == some 0 || body.isZeroWidth

/-- Does every occurrence take a token, and can there be one? -/
def takesToken : Expression → Bool
  | empty | anchor _ => false
  | token _ | anyToken => true
  | oneOf set => !set.resolve.isEmpty
  | group _ body => body.takesToken
  | concat first second => second.takesToken || first.takesToken
  | either left right => right.takesToken && left.takesToken
  | repeated body min _ => min != 0 && body.takesToken

/-- The bounds of a repetition that matter: what takes no token need not occur a
second time. -/
def boundsOf (body : Expression) (min : Nat) (max : Option Nat) : Nat × Option Nat :=
  if body.isZeroWidth then (Nat.min min 1, some (Nat.min (max.getD 1) 1)) else (min, max)

/-- Does nothing stand there at all, not even a mark? -/
def vanishes : Expression → Bool
  | empty => true
  | group mark body => mark == .plain && body.vanishes
  | concat first second => second.vanishes && first.vanishes
  | repeated body min max =>
    match boundsOf body min max with
    | (0, some 0) => true
    | (1, some 1) => body.vanishes
    | _ => false
  | _ => false

/-- The tokens of which the expression takes just one, if that is what it does. -/
def asSet? : Expression → Option RangeSet
  | token c => some (.single c)
  | anyToken => some (RangeSet.single '\n').complement
  | oneOf set => some set.resolve
  | group .plain body => body.asSet?
  | either left right => do
    let t ← right.asSet?
    let s ← left.asSet?
    some (s.union t)
  | concat first second =>
    if second.vanishes then first.asSet?
    else if first.vanishes then second.asSet? else none
  | repeated body 1 (some 1) => body.asSet?
  | _ => none

/-- The room of a repetition whose body takes `room`. Every occurrence asked for
has a body of its own, and so has every further one up to a greatest number; else
the last one is used again and again. A body that can take no token needs more to
be used again. -/
def repeatedRoom (room : Nat) (takesToken : Bool) : Nat → Option Nat → Nat
  | 0, some 1 => 2 * stateRoom + 2 * jumpRoom + room
  | 0, none =>
    if takesToken then stateRoom + 2 * jumpRoom + room
    else 3 * stateRoom + 4 * jumpRoom + room
  | min, none => min * room + stateRoom + 2 * jumpRoom
  | min, some max =>
    if max = 0 then stateRoom
    else if min = max then min * room
    else (if min = 0 then stateRoom else min * room) + stateRoom +
      (max - min) * (stateRoom + 2 * jumpRoom + room)

/-- The room of an expression without what every automaton needs. Alternatives,
however they are grouped, share a state at either end; `branch` says whether the
expression is one of several. Alternatives that take just one token each are a
set. -/
def innerRoom (d : Direction) : (branch : Bool) → Expression → Nat
  | branch, either left right =>
    let apart := innerRoom d true left + innerRoom d true right
    if branch then apart
    else match (either left right).asSet? with
      | some set => setRoom d set
      | none => 2 * stateRoom + apart
  | branch, group .plain body =>
    if branch then
      match body.asSet? with
      | some set => jumpRoom + setRoom d set
      | none => innerRoom d true body
    else innerRoom d false body
  | branch, e =>
    (if branch then jumpRoom else 0) +
      match e with
      | token c => stateRoom * c.utf8Size
      | anyToken => setRoom d (RangeSet.single '\n').complement
      | oneOf set => setRoom d set.resolve
      | group _ body => innerRoom d false body + if d = .forward then 2 * stateRoom else 0
      | concat first second =>
        match first.vanishes, second.vanishes with
        | true, true => stateRoom
        | true, false => innerRoom d false second
        | false, true => innerRoom d false first
        | false, false => innerRoom d false first + innerRoom d false second
      | repeated body min max =>
        match boundsOf body min max with
        | (1, some 1) => innerRoom d false body
        | (min, max) => repeatedRoom (innerRoom d false body) body.takesToken min max
      | _ => stateRoom

/-- The room of the automaton of an expression. It has a state before the start and
one after the end; forward, the whole is a group of its own. -/
def room (d : Direction) (e : Expression) : Nat :=
  innerRoom d false e + 2 * stateRoom + if d = .forward then 2 * stateRoom else 0

end Expression

end ConcreteSyntax
