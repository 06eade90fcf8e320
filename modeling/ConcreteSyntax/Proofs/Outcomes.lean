import ConcreteSyntax.Proofs.Termination

/-!
# Outcomes

Orderly recognizers that finish have one of two outcomes: what they read is
recognized and the cursor stands behind it, or it is not and the cursor is back.
-/

namespace ConcreteSyntax

/-- An answer that leaves the cursor, entered at `entry`, within the input: behind
what was recognized, or where it was. -/
inductive Reply.Backtracks {ε α : Type} (src : Source) (entry : Nat) : Reply ε α → Prop where
  | success (value : α) {position : Nat} (forward : entry ≤ position)
      (inside : position ≤ src.size) : Backtracks src entry (.success value position)
  | failure (error : ε) : Backtracks src entry (.failure error entry)

theorem Reply.Orderly.backtracks {ε α : Type} {covers : α → Nat → Nat → Prop} {src : Source}
    {entry : Nat} {r : Reply ε α} (h : r.Orderly covers src entry) (hr : r ≠ .unfinished) :
    r.Backtracks src entry := by
  cases r with
  | success v q =>
      obtain ⟨h₁, h₂, -⟩ := h.advances v q rfl
      exact .success v h₁ h₂
  | failure e q =>
      obtain rfl := h.returns e q rfl
      exact .failure e
  | fault f => exact absurd rfl (h.answers f)
  | unfinished => exact absurd rfl hr

/-- Whether or not a grammar is accepted, and however early a recognition is cut
off, no cursor is left astray. -/
theorem Language.scope_backtracks (l : Language) (src : Source) (n : Nat) (symbol : String)
    (path : Path) {p : Nat} (hp : p ≤ src.size) :
    (l.scope src n).production symbol path p = .unfinished ∨
      ((l.scope src n).production symbol path p).Backtracks src p := by
  have horderly := l.scope_orderly src n symbol
  rw [scope_source] at horderly
  by_cases h : (l.scope src n).production symbol path p = .unfinished
  · exact Or.inl h
  · exact Or.inr ((horderly path p hp).backtracks h)

/-- Whatever is entered at a position of the input has one of the two outcomes. -/
structure Language.Answers (l : Language) (src : Source) (p : Nat) : Prop where
  symbol : ∀ symbol path, ((l.fullScope src).production symbol path p).Backtracks src p
  production : ∀ (r : Production) (fallback : Option Validator) path,
    (r.recognizer fallback (l.fullScope src) path p).Backtracks src p
  rule : ∀ (r : Rule) path, (r.recognizer (l.fullScope src) path p).Backtracks src p
  kind : ∀ (k : Kind) path, (k.recognizer (l.fullScope src) path p).Backtracks src p
  element : ∀ (e : Element) path, (e.recognizer (l.fullScope src) path p).Backtracks src p
  group : ∀ (g : Group) path, (g.recognizer (l.fullScope src) path p).Backtracks src p

theorem Language.answers_of_build {root : String} {productions : List Production} {l : Language}
    (hbuild : Grammar.build root productions = .ok l.grammar) {src : Source} {p : Nat}
    (hp : p ≤ src.size) : l.Answers src p := by
  have hfinishes : l.Finishes src (l.stage src) p :=
    l.finishes_of_stage_le hbuild (Nat.le_refl _) hp
  have horderly := l.scope_orderly src (l.stage src)
  have hsource : (l.scope src (l.stage src)).source = src := l.scope_source src _
  have hkinds := (Kind.recognizer_orderly horderly).1
  have helements := (Kind.recognizer_orderly horderly).2
  have hgroups (g : Group) := g.recognizer_orderly horderly
  have hrules (r : Rule) := r.recognizer_orderly horderly
  have hproductions (r : Production) (fallback : Option Validator) :=
    r.recognizer_orderly fallback horderly
  rw [hsource] at horderly hkinds helements hgroups hrules hproductions
  constructor
  · exact fun symbol path => (horderly symbol path p hp).backtracks (hfinishes.symbol symbol path)
  · intro r fallback path
    exact (hproductions r fallback path p hp).backtracks (hfinishes.production r fallback path)
  · exact fun r path => (hrules r path p hp).backtracks (hfinishes.rule r path)
  · exact fun k path => (hkinds k path p hp).backtracks (hfinishes.kind k path)
  · exact fun e path => (helements e path p hp).backtracks (hfinishes.element e path)
  · exact fun g path => (hgroups g path p hp).backtracks (hfinishes.group g path)

/-- **Backtracking.** In a grammar without violations, whatever validators there
are, everything entered at a position of an input either fails and leaves the
cursor at just this position or succeeds and leaves it at one from there on, within
the input. -/
theorem recognition_backtracks {root : String} {productions : List Production} {l : Language}
    (hbuild : Grammar.build root productions = .ok l.grammar) (src : Source) {p : Nat}
    (hp : p ≤ src.size) (path : Path) :
    (∀ symbol, (l.recognizeAt src symbol p).Backtracks src p) ∧
      (∀ symbol, (l.recognizeBelow src symbol path p).Backtracks src p) ∧
      (∀ (r : Production) (fallback : Option Validator),
        (r.recognizer fallback (l.fullScope src) path p).Backtracks src p) ∧
      (∀ r : Rule, (r.recognizer (l.fullScope src) path p).Backtracks src p) ∧
      (∀ e : Element, (e.recognizer (l.fullScope src) path p).Backtracks src p) ∧
      (∀ k : Kind, (k.recognizer (l.fullScope src) path p).Backtracks src p) ∧
      ∀ g : Group, (g.recognizer (l.fullScope src) path p).Backtracks src p := by
  have hfinishes : l.Finishes src (l.stage src) p := l.finishes_of_stage_le hbuild (Nat.le_refl _) hp
  have horderly := l.scope_orderly src (l.stage src)
  obtain ⟨hkinds, helements⟩ := Kind.recognizer_orderly horderly
  have hsource : (l.fullScope src).source = src := l.scope_source src _
  have hscope : p ≤ (l.fullScope src).source.size := by rw [hsource]; exact hp
  have production (symbol : String) (path : Path) :
      ((l.fullScope src).production symbol path p).Backtracks src p := by
    have h := horderly symbol path p hscope
    exact (hsource ▸ h).backtracks (hfinishes.symbol symbol path)
  refine ⟨fun symbol => production symbol _, fun symbol => production symbol _,
    fun r fallback => ?_, fun r => ?_, fun e => ?_, fun k => ?_, fun g => ?_⟩
  · have h := r.recognizer_orderly fallback horderly path p hscope
    exact (hsource ▸ h).backtracks (hfinishes.production r fallback path)
  · have h := r.recognizer_orderly horderly path p hscope
    exact (hsource ▸ h).backtracks (hfinishes.rule r path)
  · have h := helements e path p hscope
    exact (hsource ▸ h).backtracks (hfinishes.element e path)
  · have h := hkinds k path p hscope
    exact (hsource ▸ h).backtracks (hfinishes.kind k path)
  · have h := g.recognizer_orderly horderly path p hscope
    exact (hsource ▸ h).backtracks (hfinishes.group g path)

/-- The parenthesis is never closed, and what was read behind it is given back. -/
theorem recognition_backtracks_lists :
    Grammar.build "list" lists = .ok listLanguage.grammar ∧ 2 ≤ (Source.ofString "a (aa").size ∧
      (listLanguage.recognizeAt (Source.ofString "a (aa") "list" 2).Backtracks
        (Source.ofString "a (aa") 2 :=
  ⟨build_lists, by decide,
    (recognition_backtracks build_lists _ (by decide) (.root "list")).1 "list"⟩

end ConcreteSyntax
