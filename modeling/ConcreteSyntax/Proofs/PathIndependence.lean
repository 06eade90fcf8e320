import ConcreteSyntax.Proofs.Commitment
import ConcreteSyntax.Proofs.Correspondence
import ConcreteSyntax.Proofs.Outcomes

/-!
# Paths decide nothing

A path is handed down so that a diagnosis can name where it comes from, and its last
symbol names the nodes. Set a language beside itself, on one input and entered at one
position, but under two paths: what is recognized is the same, and what is said against
it differs in the path it is said of.
-/

namespace ConcreteSyntax

/-- Two replies to one question, asked at `entry`: the same was recognized, up to one
position, or nothing was in either case, the cursor is back, and the reasons are alike. -/
inductive Reply.Alike {ε α : Type} (alike : ε → ε → Prop) (entry : Nat) :
    Reply ε α → Reply ε α → Prop where
  | success (v : α) (q : Nat) : Reply.Alike alike entry (.success v q) (.success v q)
  | failure {e e' : ε} (h : alike e e') :
      Reply.Alike alike entry (.failure e entry) (.failure e' entry)

namespace Reply.Mirrors

variable {ε α : Type} {fails : ε → ε → Prop} {yields : α → α → Prop} {r r' : Reply ε α}
variable {src : Source} {p : Nat}

/-- Mirrored at the same place, a finished reply is the same. -/
theorem alike (h : r.Mirrors 0 fails yields r') (hsame : ∀ v v', yields v v' → v = v')
    (hr : r.Backtracks src p) : r.Alike fails p r' := by
  cases h with
  | success q h =>
      obtain rfl := hsame _ _ h
      exact .success _ q
  | @failure e e' q h =>
      cases hr
      exact .failure h
  | fault f f' => cases hr
  | unfinished => cases hr

end Reply.Mirrors

theorem NodesMirror.alike {path path' : Path} {r r' : Reply Diagnosis Node} {src : Source} {p : Nat}
    (h : NodesMirror 0 path path' r r') (hr : r.Backtracks src p) :
    r.Alike (Diagnosis.Mirrors 0 path path') p r' := by
  refine Reply.Mirrors.alike h ?_ hr
  rintro _ n rfl
  exact n.shift_zero

theorem ForestsMirror.alike {path path' : Path} {r r' : Reply GroupDiagnosis Forest} {src : Source}
    {p : Nat} (h : ForestsMirror 0 path path' r r') (hr : r.Backtracks src p) :
    r.Alike (GroupDiagnosis.Mirrors 0 path path') p r' := by
  refine Reply.Mirrors.alike h ?_ hr
  rintro _ f rfl
  exact f.shift_zero

theorem Reply.Alike.of_child {path path' : Path} {symbol : String} {p : Nat}
    {r r' : Reply Diagnosis Node}
    (h : r.Alike (Diagnosis.Mirrors 0 (path.child symbol) (path'.child symbol)) p r') :
    r.Alike (Diagnosis.Mirrors 0 path path') p r' := by
  cases h with
  | success v q => exact .success v q
  | failure h => exact .failure h.of_child

/-! ## One language, two paths -/

section

variable (l : Language) (src : Source)

theorem Language.agreeOn_self : AgreeOn (fun _ => True) 0 src src l l where
  productions s _ := by
    cases l.grammar.find? s with
    | none => exact .none
    | some r => exact .some ⟨rfl, .refl src _⟩
  closed _ _ _ _ := trivial

theorem Language.scope_ignores_paths (n : Nat) (symbol : String) :
    NodeRecognizer.Mirrors 0 ((l.scope src n).production symbol)
      ((l.scope src n).production symbol) :=
  (l.agreeOn_self src).scope_mirrors (.refl src) n symbol trivial

theorem Kind.recognizer_ignores_paths :
    (∀ k : Kind, ForestRecognizer.Mirrors 0 (k.recognizer (l.fullScope src))
        (k.recognizer (l.fullScope src))) ∧
      ∀ e : Element, ForestRecognizer.Mirrors 0 (e.recognizer (l.fullScope src))
        (e.recognizer (l.fullScope src)) := by
  have hall := Kind.recognizer_mirrors (.refl (l.fullScope src).source) rfl
  exact ⟨fun k => hall.1 k fun s _ => l.scope_ignores_paths src _ s,
    fun e => hall.2 e fun s _ => l.scope_ignores_paths src _ s⟩

theorem Production.recognizer_ignores_paths (r : Production) (fallback : Option Validator) :
    NodeRecognizer.Mirrors 0 (r.recognizer fallback (l.fullScope src))
      (r.recognizer fallback (l.fullScope src)) :=
  Production.recognizer_mirrors (.refl _) rfl rfl (.refl _ _) fun s _ =>
    l.scope_ignores_paths src _ s

end

/-- **Paths.** In a grammar without violations, whatever validators there are, let
anything be recognized from a position of an input under one path and under another.
Then the same nodes are recognized up to the same position, from a step that was optional
or was not in both cases; or both fail after as many elements, for reasons of the same
kind, position, length and text and with causes alike, of which the paths prolong the two
given ones by the same symbols. What is recognized as outermost differs from what is
recognized below a path in nothing else. -/
theorem recognition_ignores_paths {root : String} {productions : List Production} {l : Language}
    (hbuild : Grammar.build root productions = .ok l.grammar) (src : Source) {p : Nat}
    (hp : p ≤ src.size) (path path' : Path) :
    (∀ (r : Production) (fallback : Option Validator),
        (r.recognizer fallback (l.fullScope src) (path.child r.symbol) p).Alike
          (Diagnosis.Mirrors 0 path path') p
          (r.recognizer fallback (l.fullScope src) (path'.child r.symbol) p)) ∧
      (∀ symbol, (l.recognizeBelow src symbol path p).Alike (Diagnosis.Mirrors 0 path path') p
        (l.recognizeBelow src symbol path' p)) ∧
      (∀ e : Element, (e.recognizer (l.fullScope src) path p).Alike
        (GroupDiagnosis.Mirrors 0 path path') p (e.recognizer (l.fullScope src) path' p)) ∧
      (∀ k : Kind, (k.recognizer (l.fullScope src) path p).Alike
        (GroupDiagnosis.Mirrors 0 path path') p (k.recognizer (l.fullScope src) path' p)) ∧
      (∀ g : Group, (g.recognizer (l.fullScope src) path p).Alike
        (GroupDiagnosis.Mirrors 0 path path') p (g.recognizer (l.fullScope src) path' p)) ∧
      ∀ symbol, (l.recognizeAt src symbol p).Alike
        (Diagnosis.Mirrors 0 (.root symbol) (path.child symbol)) p
        (l.recognizeBelow src symbol path p) := by
  have hanswers : l.Answers src p := Language.answers_of_build hbuild hp
  obtain ⟨hkinds, helements⟩ := Kind.recognizer_ignores_paths l src
  refine ⟨fun r fallback => ?_, fun symbol => ?_, fun e => ?_, fun k => ?_, fun g => ?_,
    fun symbol => ?_⟩
  · have h := r.recognizer_ignores_paths l src fallback (path.child r.symbol)
      (path'.child r.symbol) p rfl
    exact (NodesMirror.alike h (hanswers.production r fallback _)).of_child
  · have h := l.scope_ignores_paths src (l.stage src) symbol (path.child symbol)
      (path'.child symbol) p rfl
    exact (NodesMirror.alike h (hanswers.symbol symbol _)).of_child
  · exact ForestsMirror.alike (helements e path path' p) (hanswers.element e path)
  · exact ForestsMirror.alike (hkinds k path path' p) (hanswers.kind k path)
  · have h := hkinds g.toKind path path' p
    rw [Group.recognizer_toKind] at h
    exact ForestsMirror.alike h (hanswers.group g path)
  · have h := l.scope_ignores_paths src (l.stage src) symbol (.root symbol)
      (path.child symbol) p rfl
    exact NodesMirror.alike h (hanswers.symbol symbol _)

/-- A pair is begun and not completed. Both times this is promoted, and the cause is the
letter missing below. -/
theorem recognition_ignores_paths_pair :
    Grammar.build "steps" stepLanguage.grammar.productions = .ok stepLanguage.grammar ∧
      2 ≤ (Source.ofString "aba").size ∧
      (stepLanguage.recognizeBelow (Source.ofString "aba") "pair" (.root "steps") 2).Alike
        (Diagnosis.Mirrors 0 (.root "steps") (.ofSymbols "document" ["line"])) 2
        (stepLanguage.recognizeBelow (Source.ofString "aba") "pair"
          (.ofSymbols "document" ["line"]) 2) ∧
      ∃ d : Diagnosis, stepLanguage.recognizeBelow (Source.ofString "aba") "pair"
          (.ofSymbols "document" ["line"]) 2 = .failure d 2 ∧
        d.causes = [.failed (.ofSymbols "document" ["line", "pair", "@Literal"]) 3] := by
  have hbuild : Grammar.build "steps" stepLanguage.grammar.productions =
    .ok stepLanguage.grammar := rfl
  exact ⟨hbuild, by decide, (recognition_ignores_paths hbuild (Source.ofString "aba")
    (by decide) (.root "steps") (.ofSymbols "document" ["line"])).2.1 "pair", _, rfl, rfl⟩

end ConcreteSyntax
