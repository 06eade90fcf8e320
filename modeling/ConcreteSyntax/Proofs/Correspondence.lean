import ConcreteSyntax.Proofs.Approximation
import ConcreteSyntax.Proofs.Grammar.Relations
import ConcreteSyntax.Proofs.Terminal.Mirrored

/-!
# Languages side by side

A rule comes to the same in two scopes if the productions do that it mentions. So two
languages come to the same on any set of symbols on which they have the same rules,
which refer to symbols of the set only, and validators with the same verdicts: if this
is so of the productions at one stage it is so of the rules, hence of the productions at
the next.
-/

namespace ConcreteSyntax

variable {k : Nat}

/-! ## Rules -/

section

variable {scope scope' : Scope}

variable (hsrc : scope.source.Tail scope'.source k) (hbound : scope.bound = scope'.bound)

include hsrc hbound

/-- **Elements.** What an element is made of comes to the same in both scopes if the
productions do that are mentioned in it. -/
theorem Kind.recognizer_mirrors :
    (∀ kind : Kind, (∀ s, kind.Mentions s →
        NodeRecognizer.Mirrors k (scope.production s) (scope'.production s)) →
      ForestRecognizer.Mirrors k (kind.recognizer scope) (kind.recognizer scope')) ∧
    ∀ e : Element, (∀ s, e.kind.Mentions s →
        NodeRecognizer.Mirrors k (scope.production s) (scope'.production s)) →
      ForestRecognizer.Mirrors k (e.recognizer scope) (e.recognizer scope') := by
  apply Kind.induction
  · intro symbol h path path' p
    have hproduction := h symbol .reference (path.child symbol) (path'.child symbol) p rfl
    exact hproduction.toForest
  · intro rule _ path path' p
    have hrule := rule.recognize_mirrors hsrc (path.child rule.inlineSymbol)
      (path'.child rule.inlineSymbol) p rfl
    exact hrule.toForest
  · intro aggregation elements helements h
    simp only [Kind.recognizer]
    refine aggregation.recognizer_mirrors hsrc (Element.forall₂_members fun e he => ⟨rfl, ?_⟩)
    exact helements e he fun s hs => h s (.group he hs)
  · intro kind cardinality hkind h
    rw [Element.recognizer_mk, Element.recognizer_mk, ← hbound]
    exact cardinality.repeating_mirrors hsrc scope.bound (hkind h)

theorem Group.recognizer_mirrors (g : Group) (h : ∀ s, g.toKind.Mentions s →
      NodeRecognizer.Mirrors k (scope.production s) (scope'.production s)) :
    ForestRecognizer.Mirrors k (g.recognizer scope) (g.recognizer scope') := by
  rw [← Group.recognizer_toKind, ← Group.recognizer_toKind]
  exact (Kind.recognizer_mirrors hsrc hbound).1 _ h

omit hsrc hbound

/-- How many tokens a promotion commits is counted from where the rule was entered. -/
theorem Composite.conclude_mirrors (r : Composite) {path path' : Path} (start : Nat)
    {d d' : GroupDiagnosis} (h : d.Mirrors k path path' d') :
    (r.conclude path (start + k) d).Mirrors k path path' (r.conclude path' start d') := by
  have hlength : d.cause.stop - (start + k) = d'.cause.stop - start := by
    rw [h.cause.stop_eq]
    omega
  simp only [conclude, hlength, h.cause.isFailed_eq, h.count]
  cases r.threshold with
  | none => exact h.cause
  | some threshold =>
      simp only
      split
      · exact .caused [] start _ none h.cause
      · exact h.cause

include hsrc hbound

theorem Composite.recognizer_mirrors (r : Composite) (h : ∀ s, r.group.toKind.Mentions s →
      NodeRecognizer.Mirrors k (scope.production s) (scope'.production s)) :
    NodeRecognizer.Mirrors k (r.recognizer scope) (r.recognizer scope') := by
  intro path path' p hsymbol
  simp only [recognizer]
  rcases (r.group.recognizer_mirrors hsrc hbound h path path' p).outcomes with
    ⟨f, f', q, hr, hr', rfl⟩ | ⟨d, d', q, hr, hr', hd⟩ | ⟨f, f', hr, hr'⟩ | ⟨hr, hr'⟩ <;>
    simp only [hr, hr']
  · refine .check (Segment.ofBounds_mirrors k p q) ?_
    rintro _ seg rfl
    rw [hsymbol]
    refine .check (Node.ofChildren_mirrors k path'.symbol seg f'.nodes) ?_
    rintro _ node rfl
    exact .success q rfl
  · simp only [Nat.add_right_cancel_iff]
    split
    · exact .failure q (r.conclude_mirrors p hd)
    · exact .fault _ _
  · exact .fault f f'
  · exact .unfinished

/-- **Rules.** -/
theorem Rule.recognizer_mirrors (r : Rule) (h : ∀ s, r.Mentions s →
      NodeRecognizer.Mirrors k (scope.production s) (scope'.production s)) :
    NodeRecognizer.Mirrors k (r.recognizer scope) (r.recognizer scope') := by
  cases r with
  | terminal rule => exact rule.recognize_mirrors hsrc
  | composite rule => exact rule.recognizer_mirrors hsrc hbound h

end

/-! ## Productions -/

/-- Of every node the second validator says what the first says of the node moved along. -/
def SameVerdicts (k : Nat) (src src' : Source) (validator validator' : Option Validator) : Prop :=
  ∀ node, (validator.bind fun v => v (node.shift k) src) = validator'.bind fun v => v node src'

theorem SameVerdicts.refl (src : Source) (validator : Option Validator) :
    SameVerdicts 0 src src validator validator := by
  intro node
  rw [Node.shift_zero]

namespace Production

theorem validated_mirrors {src src' : Source} (hsrc : src.Tail src' k)
    {validator validator' : Option Validator} (hsame : SameVerdicts k src src' validator validator')
    (path path' : Path) (start : Nat) (node : Node) (q : Nat) :
    NodesMirror k path path' (validated validator src path (start + k) (node.shift k) (q + k))
      (validated validator' src' path' start node q) := by
  simp only [validated, hsame node]
  cases validator'.bind fun v => v node src' with
  | none => exact .success q rfl
  | some reason =>
      refine .check (distance_mirrors k start q) ?_
      rintro length _ rfl
      refine .check (hsrc.seek_mirrors start) ?_
      rintro _ p rfl
      split
      · exact .failure p (.here path path' start)
      · exact .failure p (.uncaused [] start length (some reason))

/-- **Productions.** -/
theorem recognizer_mirrors {scope scope' : Scope} (hsrc : scope.source.Tail scope'.source k)
    (hbound : scope.bound = scope'.bound) {r r' : Production}
    {fallback fallback' : Option Validator} (hrule : r.rule = r'.rule)
    (hsame : SameVerdicts k scope.source scope'.source
      (r.validator <|> fallback) (r'.validator <|> fallback'))
    (h : ∀ s, r.rule.Mentions s →
      NodeRecognizer.Mirrors k (scope.production s) (scope'.production s)) :
    NodeRecognizer.Mirrors k (r.recognizer fallback scope) (r'.recognizer fallback' scope') := by
  intro path path' p hsymbol
  simp only [recognizer, ← hrule]
  refine (r.rule.recognizer_mirrors hsrc hbound h path path' p hsymbol).bind ?_
  rintro _ node q rfl
  exact validated_mirrors hsrc hsame path path' p node q

end Production

/-! ## Languages -/

/-- On these symbols both languages have the same rules, which mention only such symbols
again, and validators with the same verdicts. -/
structure Language.AgreeOn (among : String → Prop) (k : Nat) (src src' : Source)
    (l l' : Language) : Prop where
  productions : ∀ s, among s → Option.Rel
    (fun r r' => r.rule = r'.rule ∧ SameVerdicts k src src' (r.validator <|> l.validators s)
      (r'.validator <|> l'.validators s))
    (l.grammar.find? s) (l'.grammar.find? s)
  closed : ∀ s t, among s → l.grammar.RefersTo s t → among t

namespace Language

/-- **Stages.** At every stage the productions with such symbols come to the same. -/
theorem AgreeOn.scope_mirrors {among : String → Prop} {src src' : Source} {l l' : Language}
    (hsrc : src.Tail src' k) (h : AgreeOn among k src src' l l') (n : Nat) : ∀ s, among s →
      NodeRecognizer.Mirrors k ((l.scope src n).production s) ((l'.scope src' n).production s) := by
  induction n with
  | zero =>
      intro s _ path path' p _
      exact .unfinished
  | succ n ih =>
      intro s hs
      have hrel := h.productions s hs
      simp only [scope_production_succ, production]
      cases hfind : l.grammar.find? s with
      | none =>
          cases hfind' : l'.grammar.find? s with
          | none =>
              intro path path' p _
              exact .failure p (.here path path' p)
          | some r' => simp [hfind, hfind'] at hrel
      | some r =>
          cases hfind' : l'.grammar.find? s with
          | none => simp [hfind, hfind'] at hrel
          | some r' =>
              rw [hfind, hfind', Option.rel_some_some] at hrel
              obtain ⟨hrule, hsame⟩ := hrel
              refine Production.recognizer_mirrors (by simpa using hsrc) (by simp) hrule
                (by simpa using hsame) fun t ht => ?_
              exact ih t (h.closed s t hs ⟨r, hfind, ht⟩)

end Language

end ConcreteSyntax
