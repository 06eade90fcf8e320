import ConcreteSyntax.Expression.TokenSet
import ConcreteSyntax.Text.Word

/-!
# Regular expressions

An expression describes windows of tokens. Whether it occurs in a window is
decided by following sets of places: a place is a boundary between tokens, and
an expression leads from a set of places to all those at which some occurrence
that starts in the set can end. A set of places is a natural number whose bit
`i` says whether place `i` belongs to it, so that a token moves a whole set at
once, by a mask and a shift.
-/

namespace ConcreteSyntax

/-- A mark that some places of a window bear. It takes no token. -/
inductive Anchor where
  | windowStart
  | windowEnd
  /-- At the start of the window and after every line feed. -/
  | lineStart
  /-- At the end of the window and before every line feed. -/
  | lineEnd
  /-- Before the first token of a word. -/
  | wordStart
  /-- After the last token of a word. -/
  | wordEnd
  /-- At either end of a word. -/
  | wordBoundary
  /-- Everywhere but at the ends of words. -/
  | noWordBoundary
  /-- Where no token of a word stands before. -/
  | noWordBefore
  /-- Where no token of a word comes next. -/
  | noWordAfter
deriving DecidableEq

/-- How a group is marked. Of a numbered one its occurrence is to be remembered, of a
named one under a name, which makes no difference to what matches. -/
inductive GroupMark where
  | plain
  | numbered
  | named (name : String)
deriving DecidableEq

/-- A regular expression. -/
inductive Expression where
  /-- Nothing, at any place. -/
  | empty
  /-- One given token. -/
  | token (c : Char)
  /-- One token other than a line feed. -/
  | anyToken
  /-- One token in the set. -/
  | oneOf (set : TokenSet)
  /-- Nothing, at the places with a mark. -/
  | anchor (mark : Anchor)
  /-- What stands between two parentheses. -/
  | group (mark : GroupMark) (body : Expression)
  /-- One expression after the other. -/
  | concat (first second : Expression)
  /-- Either expression. -/
  | either (left right : Expression)
  /-- At least `min` and at most `max` occurrences. -/
  | repeated (body : Expression) (min : Nat) (max : Option Nat)
deriving DecidableEq

/-- The places of a window. -/
abbrev Places := Nat

/-- The places of one set that are not in another. -/
def Places.without (s t : Places) : Places := s ^^^ (s &&& t)

/-- How a set of places moves through a given window. -/
inductive Passage where
  /-- Over one token, from the places in the mask. -/
  | across (mask : Places)
  /-- Over nothing, at the places in the mask. -/
  | staying (mask : Places)
  | andThen (first second : Passage)
  | orElse (left right : Passage)
  /-- Just `count` times. -/
  | times (count : Nat) (body : Passage)
  /-- At most `bound` times. -/
  | upTo (bound : Nat) (body : Passage)
  /-- At least once and at most `bound` times. -/
  | onceUpTo (bound : Nat) (body : Passage)
  /-- Over any number of tokens, each from a place in the mask. -/
  | along (mask : Places)

namespace Passage

/-- Either way. Two ways over one token are one such way. -/
def or : Passage → Passage → Passage
  | across mask, across mask' => across (mask ||| mask')
  | left, right => orElse left right

/-- Any number of times, of which `bound` are enough to find all places. -/
def many (bound : Nat) : Passage → Passage
  | across mask => along mask
  | body => upTo bound body

/-- Once or more, of which `bound` times are enough to find all places. -/
def oneOrMore (bound : Nat) : Passage → Passage
  | across mask => andThen (across mask) (along mask)
  | body => onceUpTo bound body

/-- The places in `s` and all behind them that one comes to through places in the
mask only. Added to the mask, a place in it carries over to the first place
behind it that is not in the mask, and changes all places on the way. -/
def flood (mask s : Places) : Places := (((s &&& mask) + mask) ^^^ mask) ||| s

/-- The result of `n` moves. A move that changes nothing is the last. -/
def iterate (move : Places → Places) : Nat → Places → Places
  | 0, s => s
  | n + 1, s =>
    let s' := move s
    if s' = s then s else iterate move n s'

/-- The places in `reached` and all that at most `n` further moves lead to from
`fresh`. Nothing new is found from places `tried` before. -/
def spread (move : Places → Places) : Nat → (tried reached fresh : Places) → Places
  | 0, _, reached, _ => reached
  | n + 1, tried, reached, fresh =>
    if fresh = 0 then reached
    else
      let found := move fresh
      let tried := tried ||| fresh
      spread move n tried (reached ||| found) (Places.without found tried)

/-- The places at which an occurrence can end that starts at one of `s`. -/
def run : Passage → Places → Places
  | across mask, s => (s &&& mask) <<< 1
  | staying mask, s => s &&& mask
  | andThen first second, s => second.run (first.run s)
  | orElse left right, s => left.run s ||| right.run s
  | times count body, s => iterate body.run count s
  | upTo bound body, s => spread body.run bound 0 s s
  | onceUpTo bound body, s => spread body.run bound 0 0 s
  | along mask, s => flood mask s

end Passage

namespace Expression

/-- The places before the tokens with a property, the tokens being given from the
last to the first. A mask is made word by word, of 60 bits each: `later` is what
all words but this one add up to, and `word` what `count` tokens made of this one. -/
def maskFrom (test : Char → Bool) (later word count : Nat) : List Char → Places
  | [] => (later <<< count) ||| word
  | c :: before =>
    let word := word + word + if test c then 1 else 0
    if count = 59 then maskFrom test ((later <<< 60) ||| word) 0 0 before
    else maskFrom test later word (count + 1) before

/-- The places before the tokens with a property. -/
def mask (test : Char → Bool) (window : List Char) : Places :=
  maskFrom test 0 0 0 window.reverse

/-- All places of a window of `n` tokens. -/
def everywhere (n : Nat) : Places := (1 <<< (n + 1)) - 1

/-- The places of a window that bear a mark. -/
def placesOf (window : List Char) (mark : Anchor) : Places :=
  let lineFeeds := mask (· == '\n') window
  -- the places before the tokens of words, and those after them
  let before := mask Text.isWordChar window
  let after := before <<< 1
  let all := everywhere window.length
  match mark with
  | .windowStart => 1
  | .windowEnd => 1 <<< window.length
  | .lineStart => 1 ||| (lineFeeds <<< 1)
  | .lineEnd => (1 <<< window.length) ||| lineFeeds
  | .wordStart => Places.without before after
  | .wordEnd => Places.without after before
  | .wordBoundary => before ^^^ after
  | .noWordBoundary => Places.without all (before ^^^ after)
  | .noWordBefore => Places.without all after
  | .noWordAfter => Places.without all before

/-- The way of an expression through a window. More occurrences than there are
places lead nowhere new. -/
def passage (window : List Char) : Expression → Passage
  | empty => .staying (everywhere window.length)
  | token c => .across (mask (· == c) window)
  | anyToken => .across (mask (· != '\n') window)
  | oneOf set => .across (mask set.contains window)
  | anchor mark => .staying (placesOf window mark)
  | group _ body => body.passage window
  | concat first second => .andThen (first.passage window) (second.passage window)
  | either left right => (left.passage window).or (right.passage window)
  | repeated body min (some max) =>
    .andThen (.times min (body.passage window)) (.upTo (max - min) (body.passage window))
  | repeated body 0 none => (body.passage window).many (window.length + 1)
  | repeated body (min + 1) none =>
    .andThen (.times min (body.passage window))
      ((body.passage window).oneOrMore (window.length + 1))

/-- Does the expression occur somewhere in the window? -/
def occursIn (e : Expression) (window : List Char) : Bool :=
  (e.passage window).run (everywhere window.length) != 0

end Expression

end ConcreteSyntax
