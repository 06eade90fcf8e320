import ConcreteSyntax.Text.Hidden

/-!
# Quoted text

A text or a character is quoted on one line: a backslash stands before the
quotation mark in use and before a backslash, four control characters have short
names, and a hidden character is written as its code point. Which characters are hidden
is up to the tables of characters at hand.
-/

namespace ConcreteSyntax.Text

/-- A code point in lower-case hexadecimal digits, without leading zeros. -/
def hexadecimal (n : Nat) : String := String.ofList (Nat.toDigits 16 n)

/-- How a character is written between two marks `mark`. -/
def escaped (hidden : Char → Bool) (mark c : Char) : String :=
  if c = mark ∨ c = '\\' then String.ofList ['\\', c]
  else match c with
    | '\t' => "\\t"
    | '\n' => "\\n"
    | '\r' => "\\r"
    | '\x00' => "\\0"
    | c => if hidden c then "\\u\x7b" ++ hexadecimal c.toNat ++ "\x7d" else c.toString

def quoted (s : String) (hidden : Char → Bool := isHidden) : String :=
  "\"" ++ String.join (s.toList.map (escaped hidden '"')) ++ "\""

/-- A character between single quotes. -/
def quotedChar (c : Char) : String := "'" ++ escaped isHidden '\'' c ++ "'"

end ConcreteSyntax.Text
