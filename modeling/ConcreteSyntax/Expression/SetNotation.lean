import ConcreteSyntax.Expression.Escape
import ConcreteSyntax.Expression.TokenSet

/-!
# The notation of bracketed sets

Between `[` and `]` stand single tokens, ranges `a-z`, classes such as `\d`, sets by
name such as `[:digit:]`, and bracketed sets again; a `^` after the opening bracket
negates. The operators `&&`, `--` and `~~` stand for intersection, difference and
symmetric difference. They bind less than listing side by side, and the leftmost comes
first. Tokens can be escaped. So can they by their place: hyphens stand for themselves
right after the opening and before the closing bracket, and a closing bracket where
nothing is listed yet.
-/

namespace ConcreteSyntax.TokenSet

/-- One token or a class, which a backslash may stand before. -/
def readMember : List Char → Option (Escape × List Char)
  | '\\' :: rest => Escape.read? rest
  | c :: rest => some (.token c, rest)
  | [] => none

/-- The tokens of a member. -/
def ofEscape : Escape → TokenSet
  | .token c => listed (.single c)
  | .oneOf tokens => listed tokens

/-- One member or a range, which has a token at either end. A hyphen before a closing
bracket or another hyphen does not make a range. -/
def readRange (cs : List Char) : Option (TokenSet × List Char) := do
  let (first, rest) ← readMember cs
  match rest with
  | '-' :: ']' :: _ | '-' :: '-' :: _ => some (ofEscape first, rest)
  | '-' :: rest =>
    let (last, rest) ← readMember rest
    match first, last with
    | .token low, .token high =>
      let range ← CharRange.between? low high
      some (listed (.ofList [range]), rest)
    | _, _ => none
  | _ => some (ofEscape first, rest)

/-- The tokens of a set with a name, as first and last of ranges. -/
def named? (name : String) : Option (List (Char × Char)) :=
  match name with
  | "alnum" => some [('0', '9'), ('A', 'Z'), ('a', 'z')]
  | "alpha" => some [('A', 'Z'), ('a', 'z')]
  | "ascii" => some [('\x00', '\x7f')]
  | "blank" => some [('\t', '\t'), (' ', ' ')]
  | "cntrl" => some [('\x00', '\x1f'), ('\x7f', '\x7f')]
  | "digit" => some [('0', '9')]
  | "graph" => some [('!', '~')]
  | "lower" => some [('a', 'z')]
  | "print" => some [(' ', '~')]
  | "punct" => some [('!', '/'), (':', '@'), ('[', '`'), ('\x7b', '~')]
  | "space" => some [('\t', '\r'), (' ', ' ')]
  | "upper" => some [('A', 'Z')]
  | "word" => some [('0', '9'), ('A', 'Z'), ('_', '_'), ('a', 'z')]
  | "xdigit" => some [('0', '9'), ('A', 'F'), ('a', 'f')]
  | _ => none

/-- A set by name, from after its opening bracket and colon. -/
def readNamed (cs : List Char) : Option (TokenSet × List Char) := do
  let (negated, cs) := match cs with
    | '^' :: rest => (true, rest)
    | _ => (false, cs)
  let bounds ← named? (String.ofList (cs.takeWhile (· != ':')))
  let tokens := RangeSet.ofList (bounds.filterMap fun (low, high) => CharRange.between? low high)
  match cs.dropWhile (· != ':') with
  | ':' :: ']' :: rest => some (listed (if negated then tokens.complement else tokens), rest)
  | _ => none

/-- What may follow an opening bracket: a mark of negation and characters that
stand for themselves just here. They come back from the last to the first. -/
def readOpening (cs : List Char) : Bool × List TokenSet × List Char :=
  let (negated, cs) := match cs with
    | '^' :: rest => (true, rest)
    | _ => (false, cs)
  let hyphens := (cs.takeWhile (· == '-')).map fun c => listed (.single c)
  match hyphens, cs.dropWhile (· == '-') with
  | [], ']' :: rest => (negated, [listed (.single ']')], rest)
  | hyphens, rest => (negated, hyphens, rest)

/-- Read up to and with the closing bracket. `complete` makes the set of the union
that is being read, of which `members` were read so far, from the last to the
first. The first argument bounds the number of members. -/
def readMembers : Nat → (complete : TokenSet → TokenSet) → (members : List TokenSet) →
    List Char → Option (TokenSet × List Char)
  | 0, _, _, _ => none
  | fuel + 1, complete, members, cs =>
    match cs with
    | ']' :: rest => some (complete (ofReversed members), rest)
    | '&' :: '&' :: rest => readMembers fuel (inter (complete (ofReversed members))) [] rest
    | '-' :: '-' :: rest => readMembers fuel (diff (complete (ofReversed members))) [] rest
    | '~' :: '~' :: rest => readMembers fuel (symmDiff (complete (ofReversed members))) [] rest
    | '[' :: inside =>
      match if inside.head? = some ':' then readNamed inside.tail else none with
      | some (set, rest) => readMembers fuel complete (set :: members) rest
      | none => do
        let (negated, first, inside) := readOpening inside
        let (body, rest) ← readMembers fuel id first inside
        readMembers fuel complete (bracketed negated body :: members) rest
    | cs => do
      let (member, rest) ← readRange cs
      readMembers fuel complete (member :: members) rest

/-- A bracketed set, from after its opening bracket. -/
def read? (cs : List Char) : Option (TokenSet × List Char) := do
  let (negated, first, inside) := readOpening cs
  let (body, rest) ← readMembers (cs.length + 1) id first inside
  some (bracketed negated body, rest)

end ConcreteSyntax.TokenSet
