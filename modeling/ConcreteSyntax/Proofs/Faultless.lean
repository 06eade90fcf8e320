import ConcreteSyntax.Proofs.EarlyCommitment
import ConcreteSyntax.Proofs.Outcomes
import ConcreteSyntax.Proofs.Unvalidated

/-!
# No request leaves its domain

Every request that makes sense only within bounds is a checked one: to place the cursor,
to make a segment of two positions or take their distance, to look at a window, to count
occurrences, to put children into a node. A request out of bounds makes a fault of the
reply. That none is ever made follows from what each recognizer leaves behind for the
next: it is entered within the input, and its answer keeps the cursor there, from where
it was entered on. Nor is a symbol ever looked up in vain but the one a recognition is
started with.
-/

namespace ConcreteSyntax

/-! ## Answers -/

namespace Reply.Backtracks

variable {ε α β : Type} {src : Source} {entry : Nat}

theorem map {view : α → β} {r : Reply ε α} (h : r.Backtracks src entry) :
    (r.map view).Backtracks src entry := by
  cases h with
  | success v forward inside => exact .success _ forward inside
  | failure e => exact .failure e

theorem uncounted {r : Reply GroupDiagnosis Forest} (h : r.Backtracks src entry) :
    r.uncounted.Backtracks src entry := by
  cases h with
  | success f forward inside => exact .success _ forward inside
  | failure d => exact .failure _

end Reply.Backtracks

/-- What is attempted within the input is answered. -/
theorem Language.reply_backtracks {root : String} {productions : List Production} {l : Language}
    (hbuild : Grammar.build root productions = .ok l.grammar) {src : Source} {a : Attempt}
    (ha : a.position ≤ src.size) : (l.reply src a).Backtracks src a.position := by
  have hanswers : l.Answers src a.position := Language.answers_of_build hbuild ha
  obtain ⟨task, path, p⟩ := a
  cases task with
  | symbol symbol => exact (hanswers.symbol symbol path).map
  | production r => exact (hanswers.production r _ path).map
  | rule r => exact (hanswers.rule r path).map
  | group g => exact (hanswers.group g path).uncounted
  | element e => exact (hanswers.element e path).uncounted
  | occurrence k => exact (hanswers.kind k path).uncounted

/-! ## Symbols -/

/-- The symbol stands in what is to be recognized. -/
def Task.Mentions (symbol : String) : Task → Prop
  | .symbol _ => False
  | .production r => r.rule.Mentions symbol
  | .rule r => r.Mentions symbol
  | .group g => g.toKind.Mentions symbol
  | .element e => e.kind.Mentions symbol
  | .occurrence k => k.Mentions symbol

/-- The symbols that stand in it all have productions. -/
def Task.Resolved (g : Grammar) (t : Task) : Prop :=
  ∀ s, t.Mentions s → ∃ r, g.find? s = some r

theorem Grammar.Valid.resolved {g : Grammar} (h : g.Valid) {r : Production}
    (hr : r ∈ g.productions) {s : String} (hs : r.rule.Mentions s) : ∃ r', g.find? s = some r' :=
  Option.isSome_iff_exists.mp (g.defines_iff.mpr (h.closed r hr s hs))

/-- **One call.** What stands in an attempt that is made stands in the one that makes it,
or in a production that was found. -/
theorem Language.Calls.resolved {l : Language} {src : Source} {a b : Attempt}
    (hvalid : l.grammar.Valid) (h : l.Calls src a b) (ha : a.task.Resolved l.grammar) :
    b.task.Resolved l.grammar := by
  intro s hs
  cases h with
  | production found => exact hvalid.resolved (List.mem_of_find?_eq_some found) hs
  | rule r path p => exact ha s hs
  | group r path p => exact ha s hs
  | element called => exact ha s (.group called.mem hs)
  | occurrence called => exact ha s hs
  | reference symbol path p => exact hs.elim
  | terminal t path p => exact hs.elim
  | nested a es path p => exact ha s hs

/-- **No fault.** In a grammar without violations, whatever validators there are, let a
symbol be recognized from a position of an input. Whatever is attempted for it, directly
or through other attempts and also where that comes to nothing, is entered within the
input and answered: something is recognized up to a position within the input, or nothing
is and the cursor is back. So no request on the way leaves its domain. Every symbol that
stands in what is attempted has a production, and so has every symbol that stands in a
production of the grammar. -/
theorem recognition_never_faults {root : String} {productions : List Production} {l : Language}
    (hbuild : Grammar.build root productions = .ok l.grammar) (src : Source) {p : Nat}
    (hp : p ≤ src.size) :
    (∀ symbol path b, Relation.ReflTransGen (l.Calls src) ⟨.symbol symbol, path, p⟩ b →
      b.position ≤ src.size ∧ (l.reply src b).Backtracks src b.position ∧
        b.task.Resolved l.grammar) ∧
      ∀ r ∈ l.grammar.productions, Task.Resolved l.grammar (.production r) := by
  have hvalid : l.grammar.Valid := Grammar.valid_of_build hbuild
  constructor
  · intro symbol path b hmakes
    have hboth : b.position ≤ src.size ∧ b.task.Resolved l.grammar := by
      induction hmakes with
      | refl => exact ⟨hp, fun s hs => hs.elim⟩
      | tail _ last ih => exact ⟨last.inside ih.1, last.resolved hvalid ih.2⟩
    exact ⟨hboth.1, Language.reply_backtracks hbuild hboth.1, hboth.2⟩
  · exact fun r hr s hs => hvalid.resolved hr hs

/-- A second item is looked for where the input ends. -/
theorem recognition_never_faults_lists :
    Grammar.build "list" lists = .ok listLanguage.grammar ∧ 0 ≤ (Source.ofString "a").size ∧
      Relation.ReflTransGen (listLanguage.Calls (Source.ofString "a"))
        ⟨.symbol "list", .root "list", 0⟩
        ⟨.symbol "item", (Path.root "list").child "item", 1⟩ ∧
      (listLanguage.reply (Source.ofString "a")
        ⟨.symbol "item", (Path.root "list").child "item", 1⟩).Backtracks
          (Source.ofString "a") 1 := by
  have hspaces : Group.Calls (listLanguage.fullScope (Source.ofString "a")) (.root "list")
      ⟨.sequence, [.mk (.reference "space") .zeroOrMore] ++
        .mk (.reference "item") .oneOrMore :: []⟩ 0 _ 0 := .sequence (.cons rfl (.nil 0))
  have hsecond : Cardinality.oneOrMore.Calls ((Kind.reference "item").recognizer
      (listLanguage.fullScope (Source.ofString "a")) (.root "list")) 0 0 1 :=
    .later rfl rfl (by decide) (.here rfl)
  have hmakes : Relation.ReflTransGen (listLanguage.Calls (Source.ofString "a"))
      ⟨.symbol "list", .root "list", 0⟩ ⟨.symbol "item", (Path.root "list").child "item", 1⟩ :=
    .head (.production rfl) <| .head (.rule _ _ _) <| .head (.group _ _ _) <|
      .head (.element hspaces) <| .head (.occurrence hsecond) <| .single (.reference _ _ _)
  exact ⟨build_lists, by decide, hmakes,
    ((recognition_never_faults build_lists (Source.ofString "a") (by decide)).1 "list"
      (.root "list") _ hmakes).2.1⟩

end ConcreteSyntax
