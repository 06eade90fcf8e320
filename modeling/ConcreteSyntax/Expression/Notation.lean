import ConcreteSyntax.Expression
import ConcreteSyntax.Expression.SetNotation

/-!
# The notation of regular expressions

Characters stand for themselves, except that `.` is any token but a line feed,
`[…]` is a set, `|` separates alternatives, `(…)`, `(?<name>…)` and `(?:…)` group, `?`,
`*`, `+`, `{n}`, `{n,}` and `{n,m}` repeat what stands before them, and `^` and `$` are
the two ends of the window. A backslash escapes a character or marks a place, as `\A`
and `\z` for the ends of the window and `\b` for those of a word. A `?` after a
repetition asks for few occurrences first, which makes no difference to what matches.

Flags change this up to the end of the group that they stand in, or in the group that
they open: `(?i)` has letters match whatever their case, `(?m)` has `^` and `$` match at
the ends of lines, `(?s)` has `.` match a line feed. `U` and `u` make no difference.

The notation is a part of a larger one. Classes by a property of their characters (`\p`),
the flags for comments, for other ends of lines and for single bytes (`x`, `R`, `-u`), and
names of groups with letters beyond ASCII are refused here.
-/

namespace ConcreteSyntax.Expression

/-- One expression after the other, from the last to the first. -/
def ofReversed : List Expression → Expression
  | [] => empty
  | [e] => e
  | e :: before => concat (ofReversed before) e

/-- The names of groups, in order. -/
def names : Expression → List String
  | group mark body =>
    match mark with
    | .named name => name :: body.names
    | _ => body.names
  | concat first second => first.names ++ second.names
  | either left right => left.names ++ right.names
  | repeated body _ _ => body.names
  | _ => []

/-! ## Flags -/

/-- What the flags change. -/
structure Flags where
  /-- Do letters match whatever their case? -/
  anyCase : Bool := false
  /-- Do `^` and `$` stand for the ends of lines? -/
  lines : Bool := false
  /-- Does `.` stand for a line feed, too? -/
  lineFeeds : Bool := false

namespace Flags

/-- The flags after some are turned on by their letters, and others turned off by
letters behind a hyphen. -/
def change? (f : Flags) (letters : List Char) : Option Flags :=
  let on := letters.takeWhile (· != '-')
  let off := letters.dropWhile (· != '-')
  if letters.eraseDups == letters && off != ['-'] && on.all "imsUu".toList.contains &&
      (off.drop 1).all "imsUxR".toList.contains then
    let turn (c : Char) (before : Bool) : Bool := (before || on.contains c) && !off.contains c
    some {
      anyCase := turn 'i' f.anyCase
      lines := turn 'm' f.lines
      lineFeeds := turn 's' f.lineFeeds }
  else none

/-- One token, or one of those that are the same but for case. -/
def token (f : Flags) (c : Char) : Expression :=
  let variants := if f.anyCase then Text.caseVariants c else [c]
  if variants.length = 1 then .token c else .oneOf (.listed (.ofList (variants.map .single)))

/-- One token of a set. -/
def oneOf (f : Flags) (set : TokenSet) : Expression :=
  .oneOf (if f.anyCase then set.anyCase else set)

/-- What a dot stands for. -/
def anyToken (f : Flags) : Expression :=
  if f.lineFeeds then .oneOf (.listed RangeSet.empty.complement) else .anyToken

/-- What `^` stands for. -/
def start (f : Flags) : Expression := .anchor (if f.lines then .lineStart else .windowStart)

/-- What `$` stands for. -/
def stop (f : Flags) : Expression := .anchor (if f.lines then .lineEnd else .windowEnd)

end Flags

/-! ## Repetitions -/

/-- The greatest number that can be written as a bound: the greatest of 32 bits. -/
def greatestBound : Nat := 0xffffffff

/-- A decimal number, with any blanks around it, and what follows. -/
def readNumber (cs : List Char) : Option (Nat × List Char) :=
  let cs := cs.dropWhile Text.isBlank
  let digits := cs.takeWhile Char.isDigit
  let n := digits.foldl (fun n c => 10 * n + (c.toNat - '0'.toNat)) 0
  if digits.isEmpty || greatestBound < n then none
  else some (n, (cs.dropWhile Char.isDigit).dropWhile Text.isBlank)

/-- The bounds after an opening brace, up to and with the closing one. -/
def readBounds (cs : List Char) : Option (Nat × Option Nat × List Char) := do
  let (min, rest) ← readNumber cs
  match rest with
  | '}' :: rest => some (min, some min, rest)
  | ',' :: '}' :: rest => some (min, none, rest)
  | ',' :: rest =>
    let (max, rest) ← readNumber rest
    match rest with
    | '}' :: rest => if min ≤ max then some (min, some max, rest) else none
    | _ => none
  | _ => none

/-- What is left after the mark that asks for few occurrences first. -/
def skipLazyMark : List Char → List Char
  | '?' :: rest => rest
  | cs => cs

/-- The last of some items, if there is one, repeated. -/
def repeatLast (min : Nat) (max : Option Nat) : List Expression → Option (List Expression)
  | [] => none
  | e :: before => some (repeated e min max :: before)

/-- Does a mark of repetition come next? -/
def isRepeatedNext (cs : List Char) : Bool := cs.head?.any fun c => "?*+\x7b".toList.contains c

/-! ## Groups and escapes -/

/-- What stands right behind an opening parenthesis. -/
inductive Opening where
  /-- What opens a group, within which these flags hold at first. -/
  | group (mark : GroupMark) (flags : Flags)
  /-- Just flags, for what follows. -/
  | flags (flags : Flags)

/-- The name of a group, up to and with the mark that ends it. -/
def readName (cs : List Char) : Option (String × List Char) :=
  let name := cs.takeWhile (· != '>')
  let isValid : Bool := match name with
    | [] => false
    | c :: rest => (c == '_' || c.isAlpha) &&
        rest.all fun c => c.isAlphanum || "_.[]".toList.contains c
  match cs.dropWhile (· != '>') with
  | '>' :: rest => if isValid then some (String.ofList name, rest) else none
  | _ => none

/-- What stands right behind an opening parenthesis where `flags` hold. Flags by
themselves cannot be repeated, nor can there be none. -/
def readOpening (flags : Flags) : List Char → Option (Opening × List Char)
  | '?' :: 'P' :: '<' :: rest | '?' :: '<' :: rest => do
    let (name, rest) ← readName rest
    some (.group (.named name) flags, rest)
  | '?' :: rest => do
    let letters := rest.takeWhile fun c => c != ':' && c != ')'
    let flags ← flags.change? letters
    match rest.drop letters.length with
    | ':' :: rest => some (.group .plain flags, rest)
    | ')' :: rest => if letters.isEmpty || isRepeatedNext rest then none else some (.flags flags, rest)
    | _ => none
  | cs => some (.group .numbered flags, cs)

/-- The places that a name in braces stands for, with what follows. -/
def readBoundary (cs : List Char) : Option (Anchor × List Char) := do
  let mark ← match String.ofList (cs.takeWhile (· != '}')) with
    | "start" => some .wordStart
    | "end" => some .wordEnd
    | "start-half" => some .noWordBefore
    | "end-half" => some .noWordAfter
    | _ => none
  match cs.dropWhile (· != '}') with
  | '}' :: rest => some (mark, rest)
  | _ => none

/-- What a backslash and the characters behind it stand for where `flags` hold. A
brace behind `\b` opens a name if a letter or a hyphen comes next, else bounds. -/
def readEscape (flags : Flags) : List Char → Option (Expression × List Char)
  | 'A' :: rest => some (anchor .windowStart, rest)
  | 'z' :: rest => some (anchor .windowEnd, rest)
  | '<' :: rest => some (anchor .wordStart, rest)
  | '>' :: rest => some (anchor .wordEnd, rest)
  | 'B' :: rest => some (anchor .noWordBoundary, rest)
  | 'b' :: '{' :: inside =>
    if inside.head?.any fun c => c.isAlpha || c == '-' then
      (readBoundary inside).map fun (mark, rest) => (anchor mark, rest)
    else some (anchor .wordBoundary, '{' :: inside)
  | 'b' :: rest => some (anchor .wordBoundary, rest)
  | cs => do
    match ← Escape.read? cs with
    | (.token c, rest) => some (flags.token c, rest)
    | (.oneOf tokens, rest) => some (oneOf (.listed tokens), rest)

/-! ## Expressions -/

/-- Read up to a closing parenthesis or the end, the flags being those that hold here.
`alternative` is what stands before the last bar, if there was one, and `items` what was
read since, from the last to the first. The first argument bounds the number of items. -/
def readItems : Nat → Flags → Option Expression → List Expression → List Char →
    Option (Expression × List Char)
  | 0, _, _, _, _ => none
  | fuel + 1, flags, alternative, items, cs =>
    let sofar := match alternative with
      | none => ofReversed items
      | some left => either left (ofReversed items)
    match cs with
    | [] => some (sofar, [])
    | ')' :: _ => some (sofar, cs)
    | '|' :: rest => readItems fuel flags (some sofar) [] rest
    | '(' :: rest => do
      match ← readOpening flags rest with
      | (.flags flags, rest) => readItems fuel flags alternative (empty :: items) rest
      | (.group mark inner, rest) =>
        let (body, rest) ← readItems fuel inner none [] rest
        match rest with
        | ')' :: rest => readItems fuel flags alternative (group mark body :: items) rest
        | _ => none
    | '?' :: rest => do
      readItems fuel flags alternative (← repeatLast 0 (some 1) items) (skipLazyMark rest)
    | '*' :: rest => do
      readItems fuel flags alternative (← repeatLast 0 none items) (skipLazyMark rest)
    | '+' :: rest => do
      readItems fuel flags alternative (← repeatLast 1 none items) (skipLazyMark rest)
    | '{' :: rest => do
      let (min, max, rest) ← readBounds rest
      readItems fuel flags alternative (← repeatLast min max items) (skipLazyMark rest)
    | '[' :: rest => do
      let (set, rest) ← TokenSet.read? rest
      readItems fuel flags alternative (flags.oneOf set :: items) rest
    | '\\' :: rest => do
      let (e, rest) ← readEscape flags rest
      readItems fuel flags alternative (e :: items) rest
    | '.' :: rest => readItems fuel flags alternative (flags.anyToken :: items) rest
    | '^' :: rest => readItems fuel flags alternative (flags.start :: items) rest
    | '$' :: rest => readItems fuel flags alternative (flags.stop :: items) rest
    | c :: rest => readItems fuel flags alternative (flags.token c :: items) rest

/-- The expression that a text denotes, if it denotes one. No two groups have one name. -/
def ofString? (text : String) : Option Expression :=
  match readItems (text.length + 1) {} none [] text.toList with
  | some (e, []) => if e.names.eraseDups == e.names then some e else none
  | _ => none

end ConcreteSyntax.Expression
