import ConcreteSyntax.CharRange
import ConcreteSyntax.Text.Word

/-!
# Escapes

A backslash makes a character of punctuation stand for itself. Some letters behind a
backslash stand for a control character, some announce a code point, and `d`, `s` and
`w` stand for the decimal digits, the blanks and the characters of words, or as capitals
for all other characters.
-/

namespace ConcreteSyntax

/-- The characters listed in a table. -/
def RangeSet.ofTable (table : List (Nat × Nat)) : RangeSet :=
  .ofList (table.filterMap fun r => CharRange.between? (Char.ofNat r.1) (Char.ofNat r.2))

/-- What a backslash and the characters behind it stand for. -/
inductive Escape where
  | token (c : Char)
  | oneOf (tokens : RangeSet)

namespace Escape

def decimals : RangeSet := .ofTable Text.decimalRanges

def blanks : RangeSet := .ofTable Text.blankRanges

def wordChars : RangeSet := .ofTable Text.wordRanges

/-- May the character follow a backslash to stand for itself? -/
def isEscapable (c : Char) : Bool :=
  decide (c.toNat < 0x80) && !c.isAlphanum && c != '<' && c != '>'

/-- The value of a hexadecimal digit. -/
def hexDigit? (c : Char) : Option Nat :=
  if c.isDigit then some (c.toNat - '0'.toNat)
  else if 'a' ≤ c ∧ c ≤ 'f' then some (c.toNat - 'a'.toNat + 10)
  else if 'A' ≤ c ∧ c ≤ 'F' then some (c.toNat - 'A'.toNat + 10)
  else none

/-- The character whose code point is written in hexadecimal digits. -/
def character? (digits : List Char) : Option Char := do
  let values ← digits.mapM hexDigit?
  let n := values.foldl (fun n v => 16 * n + v) 0
  if values ≠ [] ∧ n.isValidChar then some (Char.ofNat n) else none

/-- A character by its code point, from after the letter that announces it: just
`count` digits, or any number of them in braces. -/
def readCodePoint (count : Nat) (cs : List Char) : Option (Char × List Char) :=
  match cs with
  | '{' :: inside => do
    let c ← character? (inside.takeWhile (· != '}'))
    match inside.dropWhile (· != '}') with
    | '}' :: rest => some (c, rest)
    | _ => none
  | cs => do
    if cs.length < count then none else some (← character? (cs.take count), cs.drop count)

/-- What a backslash and the characters behind it stand for, from after the backslash. -/
def read? : List Char → Option (Escape × List Char)
  | [] => none
  | c :: rest =>
    match c with
    | 'a' => some (token '\x07', rest)
    | 'f' => some (token '\x0c', rest)
    | 'n' => some (token '\n', rest)
    | 'r' => some (token '\r', rest)
    | 't' => some (token '\t', rest)
    | 'v' => some (token '\x0b', rest)
    | 'd' => some (oneOf decimals, rest)
    | 'D' => some (oneOf decimals.complement, rest)
    | 's' => some (oneOf blanks, rest)
    | 'S' => some (oneOf blanks.complement, rest)
    | 'w' => some (oneOf wordChars, rest)
    | 'W' => some (oneOf wordChars.complement, rest)
    | 'x' => (readCodePoint 2 rest).map fun (c, rest) => (token c, rest)
    | 'u' => (readCodePoint 4 rest).map fun (c, rest) => (token c, rest)
    | 'U' => (readCodePoint 8 rest).map fun (c, rest) => (token c, rest)
    | c => if isEscapable c then some (token c, rest) else none

end Escape

end ConcreteSyntax
