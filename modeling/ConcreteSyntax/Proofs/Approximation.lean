import ConcreteSyntax.Language
import ConcreteSyntax.Proofs.RuleInduction
import Mathlib.Data.List.Forall2
import Mathlib.Order.BoundedOrder.Basic
import Mathlib.Order.Monotone.Basic

/-!
# Recognition under growing bounds

A bound can only cut a recognition off. Replies are ordered accordingly: an
unfinished one lies below every other, and all others are final. Every way of
combining recognizers is monotone in this order, hence so are the stages of a
language: what is finished at one stage stays as it is at all later ones.
-/

namespace ConcreteSyntax

/-! ## The order of replies -/

namespace Reply

variable {ε ε' α β : Type}

/-- An unfinished reply may still become any other one. -/
instance : PartialOrder (Reply ε α) where
  le r s := r = .unfinished ∨ r = s
  le_refl _ := Or.inr rfl
  le_trans r s t hrs hst := by
    rcases hrs with rfl | rfl
    · exact Or.inl rfl
    · exact hst
  le_antisymm r s hrs hsr := by
    rcases hrs with rfl | rfl
    · rcases hsr with rfl | rfl <;> rfl
    · rfl

instance : OrderBot (Reply ε α) where
  bot := .unfinished
  bot_le _ := Or.inl rfl

@[simp] theorem unfinished_le (r : Reply ε α) : .unfinished ≤ r := Or.inl rfl

/-- A finished reply is final. -/
theorem eq_of_le {r s : Reply ε α} (h : r ≤ s) (hr : r ≠ .unfinished) : s = r := by
  rcases h with h | h
  · exact absurd h hr
  · exact h.symm

theorem bind_mono {r s : Reply ε α} {f g : α → Nat → Reply ε β} (h : r ≤ s)
    (hfg : ∀ v p, f v p ≤ g v p) : r.bind f ≤ s.bind g := by
  rcases h with rfl | rfl
  · exact unfinished_le _
  · cases r with
    | success v p => exact hfg v p
    | _ => exact le_refl _

theorem check_mono {request : Except Fault β} {f g : β → Reply ε α} (hfg : ∀ b, f b ≤ g b) :
    check request f ≤ check request g := by
  cases request with
  | ok b => exact hfg b
  | error f => exact le_refl _

theorem map_mono (view : α → β) {r s : Reply ε α} (h : r ≤ s) : r.map view ≤ s.map view := by
  rcases h with rfl | rfl
  · exact unfinished_le _
  · exact le_refl _

theorem restoring_mono (src : Source) (entry : Nat) {r s : Reply ε α} (h : r ≤ s) :
    restoring src entry r ≤ restoring src entry s := by
  rcases h with rfl | rfl
  · exact unfinished_le _
  · exact le_refl _

theorem toForest_mono {r s : Reply Diagnosis Node} (h : r ≤ s) : r.toForest ≤ s.toForest := by
  rcases h with rfl | rfl
  · exact unfinished_le _
  · exact le_refl _

end Reply

open Reply

/-- Members are compared by their recognizers; being optional is the same for both. -/
instance : LE Member where
  le m m' := m.optional = m'.optional ∧ m.recognizer ≤ m'.recognizer

/-- Scopes of one input are compared by what they allow. -/
instance : LE Scope where
  le s s' := s.source = s'.source ∧ s.bound ≤ s'.bound ∧ s.production ≤ s'.production

/-! ## Groups -/

theorem sequenceFrom_mono {es es' : List ForestRecognizer} (h : es.Forall₂ (· ≤ ·) es')
    (path : Path) : ∀ index p, sequenceFrom index es path p ≤ sequenceFrom index es' path p := by
  induction h with
  | nil =>
      intro index p
      exact le_refl _
  | @cons e e' es es' he _ ih =>
      intro index p
      simp only [sequenceFrom]
      rcases he path p with h | h
      · rw [h]
        exact unfinished_le _
      · rw [h]
        cases e' path p with
        | success f q => exact map_mono _ (ih (index + 1) q)
        | _ => exact le_refl _

theorem choiceAfter_mono {es es' : List ForestRecognizer} (h : es.Forall₂ (· ≤ ·) es')
    (path : Path) : ∀ sofar p, choiceAfter sofar es path p ≤ choiceAfter sofar es' path p := by
  induction h with
  | nil =>
      intro sofar p
      exact le_refl _
  | @cons e e' es es' he _ ih =>
      intro sofar p
      simp only [choiceAfter]
      rcases he path p with h | h
      · rw [h]
        exact unfinished_le _
      · rw [h]
        cases e' path p with
        | failure d q =>
            by_cases hd : d.cause.isIncomplete
            · simp [hd]
            · simpa [hd] using ih _ q
        | _ => exact le_refl _

/-- Members compared one by one, with the optional ones at the same places, have as many of
them. -/
theorem count_optional_eq {R : Member → Member → Prop}
    (hR : ∀ m m', R m m' → m.optional = m'.optional) {ms ms' : List Member} (h : ms.Forall₂ R ms') :
    (ms.filter Member.optional).length = (ms'.filter Member.optional).length := by
  induction h with
  | nil => rfl
  | @cons m m' ms ms' hm _ ih => simp [List.filter_cons, hR m m' hm, apply_ite List.length, ih]

namespace Quorum

theorem explore_mono (s : Quorum)
    {search search' : List Member → Nat → Nat → Reply GroupDiagnosis Candidate}
    (hsearch : ∀ ms ms' : List Member, ms.Forall₂ (· ≤ ·) ms' →
      ∀ taken p, search ms taken p ≤ search' ms' taken p)
    (path : Path) (start taken : Nat) {ms ms' : List Member} (h : ms.Forall₂ (· ≤ ·) ms') :
    ∀ tried tried' : List Member, tried.Forall₂ (· ≤ ·) tried' → ∀ best p,
      s.explore search path start taken tried ms best p ≤
        s.explore search' path start taken tried' ms' best p := by
  -- the members tried before are searched again behind a success, so they grow as well
  induction h with
  | nil =>
      intro tried tried' _ best p
      exact le_refl _
  | @cons m m' ms ms' hm hms ih =>
      intro tried tried' htried best p
      have ih := ih (m :: tried) (m' :: tried') (.cons hm htried)
      simp only [explore]
      rcases hm.2 path p with h | h
      · rw [h]
        exact unfinished_le _
      · rw [h]
        cases m'.recognizer path p with
        | success f q =>
            by_cases hq : start < q
            · simp only [hq, if_true]
              have hrest := hsearch _ _
                (List.rel_append (List.forall₂_reverse_iff.mpr htried) hms) (taken + 1) q
              rcases hrest with h | h
              · rw [h]
                exact unfinished_le _
              · rw [h]
                cases search' (tried'.reverse ++ ms') (taken + 1) q with
                | success c q' =>
                    apply check_mono
                    intro p
                    by_cases hb : c.beats best
                    · by_cases hc : c.taken = s.total
                      · simp [hb, hc]
                      · simpa [hb, hc] using ih _ p
                    · simpa [hb] using ih _ p
                | _ => exact le_refl _
            · simpa [hq] using ih _ q
        | failure d q =>
            by_cases hd : d.cause.isIncomplete
            · simp [hd]
            · simpa [hd] using ih _ q
        | _ => exact le_refl _

theorem search_mono (s : Quorum) (path : Path) (n : Nat) :
    ∀ ms ms' : List Member, ms.Forall₂ (· ≤ ·) ms' →
      ∀ taken p, s.search path n ms taken p ≤ s.search path n ms' taken p := by
  induction n with
  | zero =>
      intro ms ms' h taken p
      simp [search, standing, count_optional_eq (fun _ _ hm => hm.1) h]
  | succ n ih =>
      intro ms ms' h taken p
      simp only [search, standing, count_optional_eq (fun _ _ hm => hm.1) h]
      exact s.explore_mono ih path p taken h [] [] .nil _ p

end Quorum

theorem anyOrder_mono (src : Source) (required : Nat) {ms ms' : List Member}
    (h : ms.Forall₂ (· ≤ ·) ms') : anyOrder src ms required ≤ anyOrder src ms' required := by
  intro path p
  simp only [anyOrder, h.length_eq]
  apply restoring_mono
  apply bind_mono
  · exact Quorum.search_mono _ path _ ms ms' h 0 p
  · intro best q
    exact le_refl _

/-! ## Repetition -/

namespace Cardinality

theorem runFrom_mono (c : Cardinality) {occ occ' : Nat → Nat → Reply GroupDiagnosis Forest}
    (h : ∀ done p, occ done p ≤ occ' done p) : ∀ {bound bound' : Nat}, bound ≤ bound' →
      ∀ done p, c.runFrom occ bound done p ≤ c.runFrom occ' bound' done p
  | 0, bound', _, done, p => by
      by_cases hfull : c.isFull done
      · unfold runFrom
        simp [hfull]
      · rw [runFrom]
        simp [hfull]
  | bound + 1, 0, hb, _, _ => absurd hb (Nat.not_succ_le_zero bound)
  | bound + 1, bound' + 1, hb, done, p => by
      rw [runFrom, runFrom]
      by_cases hfull : c.isFull done
      · simp [hfull]
      · simp only [hfull, Bool.false_eq_true, if_false]
        rcases h done p with he | he
        · rw [he]
          exact unfinished_le _
        · rw [he]
          cases occ' done p with
          | success f q =>
              by_cases hq : q = p
              · simp [hq]
              · simpa [hq] using
                  map_mono _ (c.runFrom_mono h (Nat.le_of_succ_le_succ hb) (done + 1) q)
          | _ => exact le_refl _

theorem repeating_mono (c : Cardinality) (src : Source) {bound bound' : Nat}
    (hb : bound ≤ bound') {r r' : ForestRecognizer} (h : r ≤ r') :
    (c.repeating src bound fun _ => r) ≤ c.repeating src bound' fun _ => r' := by
  intro path p
  apply restoring_mono
  rcases c.runFrom_mono (fun _ q => h path q) hb 0 p with he | he
  · simp [he]
  · rw [he]

end Cardinality

/-! ## Rules and languages -/

theorem Aggregation.recognizer_mono (a : Aggregation) (src : Source) {ms ms' : List Member}
    (h : ms.Forall₂ (· ≤ ·) ms') : a.recognizer src ms ≤ a.recognizer src ms' := by
  have hmap : (ms.map Member.recognizer).Forall₂ (· ≤ ·) (ms'.map Member.recognizer) :=
    List.forall₂_map_left_iff.mpr (List.forall₂_map_right_iff.mpr (h.imp fun _ _ hm => hm.2))
  cases a with
  | sequence =>
      intro path p
      apply restoring_mono
      exact sequenceFrom_mono hmap path 0 p
  | choice =>
      intro path p
      exact choiceAfter_mono hmap path none p
  | set minimum =>
      simp only [Aggregation.recognizer, h.length_eq]
      exact anyOrder_mono src _ h

section

variable {scope scope' : Scope}

/-- The members of a group in two scopes are compared element by element. -/
theorem Element.forall₂_members {R : Member → Member → Prop} {es : List Element}
    (h : ∀ e ∈ es, R ⟨e.isOptional, e.recognizer scope⟩ ⟨e.isOptional, e.recognizer scope'⟩) :
    (Element.members scope es).Forall₂ R (Element.members scope' es) := by
  rw [Element.members_eq_map, Element.members_eq_map, List.forall₂_map_left_iff,
    List.forall₂_map_right_iff, List.forall₂_same]
  exact h

/-- A larger scope finishes more of the elements and of what they are made of. -/
theorem Kind.recognizer_mono (hs : scope ≤ scope') :
    (∀ k : Kind, k.recognizer scope ≤ k.recognizer scope') ∧
      ∀ e : Element, e.recognizer scope ≤ e.recognizer scope' := by
  obtain ⟨hsource, hbound, hproduction⟩ := hs
  apply Kind.induction
  · intro symbol path p
    apply toForest_mono
    exact hproduction symbol _ p
  · intro rule path p
    simp only [Kind.recognizer, hsource]
    exact le_refl _
  · intro aggregation elements h
    simp only [Kind.recognizer, hsource]
    exact aggregation.recognizer_mono _ (Element.forall₂_members fun e he => ⟨rfl, h e he⟩)
  · intro kind cardinality h
    simp only [Element.recognizer_mk, hsource]
    exact cardinality.repeating_mono _ hbound h

theorem Group.recognizer_mono (hs : scope ≤ scope') (g : Group) :
    g.recognizer scope ≤ g.recognizer scope' := by
  rw [← Group.recognizer_toKind, ← Group.recognizer_toKind]
  exact (Kind.recognizer_mono hs).1 _

theorem Rule.recognizer_mono (hs : scope ≤ scope') (r : Rule) :
    r.recognizer scope ≤ r.recognizer scope' := by
  intro path p
  cases r with
  | terminal rule =>
      rw [Rule.recognizer, Rule.recognizer, hs.1]
  | composite r =>
      simp only [Rule.recognizer, Composite.recognizer]
      rcases r.group.recognizer_mono hs path p with h | h
      · rw [h]
        exact unfinished_le _
      · rw [h]

theorem Production.recognizer_mono (hs : scope ≤ scope') (r : Production)
    (fallback : Option Validator) : r.recognizer fallback scope ≤ r.recognizer fallback scope' := by
  intro path p
  simp only [Production.recognizer, hs.1]
  exact bind_mono (r.rule.recognizer_mono hs path p) fun _ _ => le_refl _

end

namespace Language

variable (l : Language) (src : Source)

@[simp] theorem scope_source (n : Nat) : (l.scope src n).source = src := by
  cases n <;> rfl

@[simp] theorem scope_bound (n : Nat) : (l.scope src n).bound = n := by
  cases n <;> rfl

theorem scope_production_succ (n : Nat) (symbol : String) :
    (l.scope src (n + 1)).production symbol = l.production (l.scope src n) symbol := rfl

theorem production_mono {scope scope' : Scope} (hs : scope ≤ scope') (symbol : String) :
    l.production scope symbol ≤ l.production scope' symbol := by
  unfold production
  cases l.grammar.find? symbol with
  | some r => exact r.recognizer_mono hs _
  | none => exact le_refl _

theorem scope_le_succ (n : Nat) : l.scope src n ≤ l.scope src (n + 1) := by
  refine ⟨by simp, by simp, ?_⟩
  induction n with
  | zero =>
      intro symbol path p
      exact unfinished_le _
  | succ n ih =>
      intro symbol
      have hs : l.scope src n ≤ l.scope src (n + 1) := ⟨by simp, by simp, ih⟩
      exact l.production_mono hs symbol

/-- **Later stages allow more.** -/
theorem scope_mono {n m : Nat} (h : n ≤ m) : l.scope src n ≤ l.scope src m := by
  refine ⟨by simp, by simpa using h, ?_⟩
  exact monotone_nat_of_le_succ (f := fun n => (l.scope src n).production)
    (fun n => (l.scope_le_succ src n).2.2) h

end Language

end ConcreteSyntax
