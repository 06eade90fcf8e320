import ConcreteSyntax.Proofs.Correspondence
import ConcreteSyntax.Proofs.EarlyCommitment
import ConcreteSyntax.Proofs.Outcomes
import ConcreteSyntax.Proofs.Texts

/-!
# Nothing is looked at behind

A recognition entered somewhere in a text depends on the tokens from there on. Cut off
those before, enter at the start of what is left, and it comes to the same, with all
places named so many tokens earlier. Validators are left out of this: one is given the
whole input and may look anywhere.
-/

namespace ConcreteSyntax

/-- The first reply is the second one, given at the start of an input, with all that it
says of places moved along. A failure is back where it was entered. -/
inductive Reply.Moved (k : Nat) : Reply Diagnosis Node → Reply Diagnosis Node → Prop where
  | success (n : Node) (q : Nat) :
      Reply.Moved k (.success (n.shift k) (q + k)) (.success n q)
  | failure (d : Diagnosis) : Reply.Moved k (.failure (d.shift k) k) (.failure d 0)

theorem NodesMirror.moved {k : Nat} {path : Path} {r r' : Reply Diagnosis Node} {src : Source}
    (h : NodesMirror k path path r r') (hr : r'.Backtracks src 0) : r.Moved k r' := by
  cases h with
  | @success n n' q h =>
      obtain rfl := h
      exact .success n' q
  | @failure d d' q h =>
      obtain rfl := h.eq_shift
      cases hr
      rw [Nat.zero_add]
      exact .failure d'
  | fault f f' => cases hr
  | unfinished => cases hr

/-- The text from the token numbered `p` on. -/
def textFrom (text : String) (p : Nat) : String := String.ofList (text.toList.drop p)

theorem Source.tail_ofString {text : String} {p : Nat} (hp : p ≤ text.toList.length) :
    (ofString text).Tail (ofString (textFrom text p)) p where
  inside := by
    rw [size_ofString]
    exact hp
  tokens := by rw [tokens_ofString, tokens_ofString, textFrom, String.toList_ofList]

namespace Language

variable {l : Language} {src src' : Source} {k : Nat}

/-- Without validators there is no verdict that could differ. -/
theorem Unvalidated.agreeOn_self (h : l.Unvalidated) (src src' : Source) (k : Nat) :
    AgreeOn (fun _ => True) k src src' l l where
  productions s _ := by
    cases hfind : l.grammar.find? s with
    | none => exact .none
    | some r =>
        refine .some ⟨rfl, ?_⟩
        rw [h.productions r (List.mem_of_find?_eq_some hfind), h.registered s]
        exact fun _ => rfl
  closed _ _ _ _ := trivial

/-- Fewer steps are enough for the shorter input. -/
theorem stage_le_of_tail (h : src.Tail src' k) : l.stage src' ≤ l.stage src := by
  have hsize : src'.size + 2 ≤ src.size + 2 := by
    rw [h.size_eq]
    omega
  exact Nat.mul_le_mul_left _ hsize

end Language

/-- **No look-behind.** In a grammar without violations and without validators, let a
symbol be recognized from a position of a text, and from the start of the text that is
left when the tokens before this position are cut off. Either both times a node is
recognized, or both times there is a diagnosis. The end position, every segment in the
tree and the positions in the diagnosis and its causes differ by what was cut off, and
nothing else differs. -/
theorem recognition_looks_ahead {root : String} {productions : List Production} {l : Language}
    (hbuild : Grammar.build root productions = .ok l.grammar) (hunvalidated : l.Unvalidated)
    (text : String) {p : Nat} (hp : p ≤ text.toList.length) :
    (∀ symbol, (l.recognizeAt (Source.ofString text) symbol p).Moved p
        (l.recognizeAt (Source.ofString (textFrom text p)) symbol 0)) ∧
      ∀ symbol path, (l.recognizeBelow (Source.ofString text) symbol path p).Moved p
        (l.recognizeBelow (Source.ofString (textFrom text p)) symbol path 0) := by
  have htail := Source.tail_ofString hp
  have hanswers : l.Answers (Source.ofString (textFrom text p)) 0 :=
    Language.answers_of_build hbuild (Nat.zero_le _)
  have production (symbol : String) (path : Path) :
      ((l.fullScope (Source.ofString text)).production symbol path p).Moved p
        ((l.fullScope (Source.ofString (textFrom text p))).production symbol path 0) := by
    -- the stage of the longer input is late enough for both
    have hstage := (hunvalidated.agreeOn_self _ _ p).scope_mirrors htail
      (l.stage (Source.ofString text)) symbol trivial path path 0 rfl
    rw [Nat.zero_add, Language.production_fullScope_of_stage_le hbuild
      (Language.stage_le_of_tail htail) symbol path (Nat.zero_le _)] at hstage
    exact NodesMirror.moved hstage (hanswers.symbol symbol path)
  exact ⟨fun symbol => production symbol _, fun symbol path => production symbol _⟩

/-- Quotations, in which a quotation mark is written twice. -/
def quotationLanguage : Language := .ofGrammar ⟨"quotation",
  [⟨"quotation", .terminal (.delimited
      { start := ['"']
        stop := some ['"']
        legalSequences := []
        illegalSequences := [['"']]
        legalRanges := .empty
        illegalRanges := .empty
        escape := some ['"', '"']
        acceptsEmpty := true
        start_ne_nil := by simp
        legal_ne_nil := by simp
        illegal_ne_nil := by simp
        stop_mem_illegal := by simp }), none⟩]⟩

/-- The first quotation mark is behind the position: the third is not written twice. -/
theorem recognition_looks_ahead_quotation :
    Grammar.build "quotation" quotationLanguage.grammar.productions =
        .ok quotationLanguage.grammar ∧
      quotationLanguage.Unvalidated ∧ 1 ≤ "\"\"a\"b".toList.length ∧
      (quotationLanguage.recognizeAt (Source.ofString "\"\"a\"b") "quotation" 1).Moved 1
        (quotationLanguage.recognizeAt (Source.ofString (textFrom "\"\"a\"b" 1)) "quotation" 0) ∧
      ∃ n, quotationLanguage.recognizeAt (Source.ofString "\"\"a\"b") "quotation" 1 =
        .success n 4 := by
  have hbuild : Grammar.build "quotation" quotationLanguage.grammar.productions =
    .ok quotationLanguage.grammar := rfl
  have hunvalidated : quotationLanguage.Unvalidated :=
    ⟨by simp [quotationLanguage, Language.ofGrammar], fun _ => rfl⟩
  exact ⟨hbuild, hunvalidated, by decide,
    (recognition_looks_ahead hbuild hunvalidated _ (by decide)).1 "quotation", _, rfl⟩

end ConcreteSyntax
