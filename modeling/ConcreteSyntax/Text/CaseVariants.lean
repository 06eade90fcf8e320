import ConcreteSyntax.Text.Lowercase

/-!
# Variants in case

Some small letters have several forms and one capital for all of them, and some have
several capitals. Which characters are the same but for case is therefore not just a
matter of lower case: all forms of a small letter count as the plain one. Every
character has one other for each variant, and never a sequence of them.
-/

namespace ConcreteSyntax.Text

/-- Small letters that are forms of another, which stands second. -/
def letterForms : List (Nat × Nat) :=
  [
    (0xb5, 0x3bc), (0x17f, 0x73), (0x345, 0x3b9), (0x3c2, 0x3c3), (0x3d0, 0x3b2),
    (0x3d1, 0x3b8), (0x3d5, 0x3c6), (0x3d6, 0x3c0), (0x3f0, 0x3ba), (0x3f1, 0x3c1),
    (0x3f5, 0x3b5), (0x1c80, 0x432), (0x1c81, 0x434), (0x1c82, 0x43e), (0x1c83, 0x441),
    (0x1c84, 0x442), (0x1c85, 0x442), (0x1c86, 0x44a), (0x1c87, 0x463), (0x1c88, 0xa64b),
    (0x1e9b, 0x1e61), (0x1fbe, 0x3b9), (0x1fd3, 0x390), (0x1fe3, 0x3b0), (0xfb06, 0xfb05)]

/-- The plain small letter that stands for a character and all its variants. -/
def foldCase (c : Char) : Char :=
  match letterForms.lookup c.toNat with
  | some n => Char.ofNat n
  | none =>
    match lowercase c with
    | [d] => d
    | _ => c

/-- The character of the run whose lower case has the code point `n`. -/
def CaseRun.capital? (r : CaseRun) (n : Nat) : Option Nat :=
  if r.lower ≤ n && n - r.lower ≤ r.last - r.first && (n - r.lower) % r.step == 0 then
    some (n - r.lower + r.first)
  else none

/-- All characters that are the same as this one but for case, itself among them. -/
def caseVariants (c : Char) : List Char :=
  let d := foldCase c
  let capitals := caseRuns.filterMap (·.capital? d.toNat)
  let forms := (letterForms.filter fun form => form.2 == d.toNat).map Prod.fst
  d :: (capitals ++ forms).map Char.ofNat

/-- The plain small letters of which there is any variant. -/
def casedLetters : List Char :=
  let small := caseRuns.flatMap fun r =>
    (List.range ((r.last - r.first) / r.step + 1)).map fun k => r.lower + k * r.step
  (small ++ letterForms.map Prod.snd).map Char.ofNat

end ConcreteSyntax.Text
