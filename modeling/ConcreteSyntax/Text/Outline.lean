import ConcreteSyntax.Text.Quoted

/-!
# Outlines

An outline is the structure of a value in writing, on one line: a word, a list in
brackets, a name with arguments in parentheses, or a name with named fields in
braces.
-/

namespace ConcreteSyntax.Text

/-- The structure of a value. -/
inductive Outline where
  | word (text : String)
  | list (items : List Outline)
  | tuple (name : String) (arguments : List Outline)
  | record (name : String) (fields : List (String × Outline))

namespace Outline

def text (s : String) : Outline := .word (quoted s)

def char (c : Char) : Outline := .word (quotedChar c)

def nat (n : Nat) : Outline := .word (toString n)

def bool (b : Bool) : Outline := .word (if b then "true" else "false")

def option {α : Type} (view : α → Outline) : Option α → Outline
  | none => .word "None"
  | some a => .tuple "Some" [view a]

def tokens (cs : List Char) : Outline := .list (cs.map char)

mutual

/-- The outline in writing. -/
def render : Outline → String
  | word text => text
  | list items => "[" ++ ", ".intercalate (renderAll items) ++ "]"
  | tuple name arguments => name ++ "(" ++ ", ".intercalate (renderAll arguments) ++ ")"
  | record name fields =>
    name ++ " \x7b " ++ ", ".intercalate (renderFields fields) ++ " \x7d"

def renderAll : List Outline → List String
  | [] => []
  | o :: rest => o.render :: renderAll rest

def renderFields : List (String × Outline) → List String
  | [] => []
  | (name, o) :: rest => (name ++ ": " ++ o.render) :: renderFields rest

end

end Outline

end ConcreteSyntax.Text
