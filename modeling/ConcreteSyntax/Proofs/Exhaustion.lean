import ConcreteSyntax.Proofs.Derivation
import ConcreteSyntax.Proofs.SetSearch

/-!
# Sets try every order

A set is recognized just if some order of its elements is enough, by a largest such
order; if none is, its diagnosis tells how far the largest one got. This holds as
long as no element commits tokens and then fails: such an element ends the set at
once, and since an order that takes every element ends it as well, whether the
element is tried at all may depend on the order in which elements are declared.
-/

namespace ConcreteSyntax

/-- Elements of a set that can be taken in this order, from `p` to `q`, and those
that are left. Each is tried where the one before ended, and reads something. -/
structure SetOrder (scope : Scope) (path : Path) (elements : List Element) (p : Nat)
    (taken untaken : List Element) (ns : List Node) (q : Nat) : Prop where
  split : (taken ++ untaken).Perm elements
  run : Taken path (Element.members scope taken) p ns q

/-- Are as many elements recognized as required? One that may be absent is if it is
left. -/
def EnoughTaken (required : Nat) (taken untaken : List Element) : Prop :=
  required ≤ taken.length + (untaken.filter Element.isOptional).length

instance (required : Nat) (taken untaken : List Element) :
    Decidable (EnoughTaken required taken untaken) :=
  inferInstanceAs (Decidable (_ ≤ _))

/-- A reply of a set that has tried every order of its elements. -/
structure Exhausted (scope : Scope) (path : Path) (elements : List Element) (required p : Nat)
    (r : Reply GroupDiagnosis Forest) : Prop where
  /-- The set is recognized just if some order is enough. -/
  success_iff : (∃ f q, r = .success f q) ↔ ∃ taken untaken ns q,
    SetOrder scope path elements p taken untaken ns q ∧ EnoughTaken required taken untaken
  /-- Its nodes and its end are those of a largest order that is enough. -/
  largest : ∀ f q, r = .success f q → ∃ taken untaken,
    SetOrder scope path elements p taken untaken f.nodes q ∧ EnoughTaken required taken untaken ∧
      ∀ taken' untaken' ns' q', SetOrder scope path elements p taken' untaken' ns' q' →
        EnoughTaken required taken' untaken' → taken'.length ≤ taken.length
  /-- If no order is enough and no element can be taken, nothing is committed. Else the
  diagnosis tells of a largest order, and of those as large of one that stops last. -/
  diagnosis : (¬ ∃ f q, r = .success f q) →
    (∀ e ∈ elements, ∀ f q, e.recognizer scope path p = .success f q → q ≤ p) ∧
        r = .failure ⟨0, .failed path p⟩ p ∨
      ∃ taken untaken ns q, taken ≠ [] ∧ SetOrder scope path elements p taken untaken ns q ∧
        (∀ taken' untaken' ns' q', SetOrder scope path elements p taken' untaken' ns' q' →
          taken'.length ≤ taken.length ∧ (taken'.length = taken.length → q' ≤ q)) ∧
        r = .failure ⟨taken.length, .partway path p (q - p)⟩ p

/-- A reply that passes on what an element said which committed tokens, tried where an
order of others ended. -/
def Interrupted (scope : Scope) (path : Path) (elements : List Element) (p : Nat)
    (r : Reply GroupDiagnosis Forest) : Prop :=
  ∃ taken e untaken ns q d, SetOrder scope path elements p taken (e :: untaken) ns q ∧
    q ≤ scope.source.size ∧ e.recognizer scope path q = .failure d q ∧
    d.cause.isIncomplete = true ∧ r = .failure (d.withCount (taken.length + d.count)) p

/-! ## Orders of elements and orders of members -/

section

variable {scope : Scope} {path : Path} {elements : List Element} {p : Nat} {s : Quorum}

theorem Element.length_filter_optional (scope : Scope) (es : List Element) :
    ((Element.members scope es).filter Member.optional).length =
      (es.filter Element.isOptional).length := by
  rw [Element.members_eq_map, List.filter_map, List.length_map]
  rfl

/-- Whichever way the elements are declared, their orders are the same. -/
theorem SetOrder.perm {elements' taken untaken : List Element} {ns : List Node} {q : Nat}
    (h : SetOrder scope path elements p taken untaken ns q) (hperm : elements.Perm elements') :
    SetOrder scope path elements' p taken untaken ns q :=
  ⟨h.split.trans hperm, h.run⟩

/-- The candidate of an order of elements. -/
theorem SetOrder.ordered {taken untaken : List Element} {ns : List Node} {q : Nat}
    (h : SetOrder scope path elements p taken untaken ns q) :
    s.Ordered path (Element.members scope elements) 0 p
      ⟨decide (EnoughTaken s.required taken untaken), taken.length, q, ns⟩ := by
  have hsplit : (Element.members scope taken ++ Element.members scope untaken).Perm
      (Element.members scope elements) := by
    simp only [Element.members_eq_map, ← List.map_append]
    exact h.split.map _
  refine ⟨_, _, hsplit, h.run, ?_, ?_⟩
  · simp
  · rw [Element.length_filter_optional]
    rfl

/-- Every candidate is that of an order of elements. -/
theorem Quorum.Ordered.setOrder {c : Candidate}
    (h : s.Ordered path (Element.members scope elements) 0 p c) :
    ∃ taken untaken, SetOrder scope path elements p taken untaken c.nodes c.stop ∧
      c.taken = taken.length ∧ (c.satisfied = true ↔ EnoughTaken s.required taken untaken) := by
  obtain ⟨order, rest, hperm, htaken, hcount, hsatisfied⟩ := h
  rw [Element.members_eq_map] at hperm
  obtain ⟨es, hes, hsplit⟩ := eq_map_of_perm_map hperm
  obtain ⟨taken, untaken, rfl, rfl, rfl⟩ := List.map_eq_append_iff.mp hes.symm
  rw [← Element.members_eq_map] at htaken hcount
  rw [← Element.members_eq_map, Element.length_filter_optional] at hsatisfied
  have hlength : c.taken = taken.length := by
    rw [hcount, Element.length_members, Nat.zero_add]
  refine ⟨taken, untaken, ⟨hsplit, htaken⟩, hlength, ?_⟩
  rw [hsatisfied, decide_eq_true_eq, hlength]
  rfl

/-- No order exceeds the best candidate. -/
theorem Quorum.Best.bounds {c : Candidate} {taken untaken : List Element} {ns : List Node} {q : Nat}
    (hbest : s.Best path (Element.members scope elements) 0 p c)
    (h : SetOrder scope path elements p taken untaken ns q) :
    (EnoughTaken s.required taken untaken → c.satisfied = true) ∧
      ((c.satisfied = true → EnoughTaken s.required taken untaken) → taken.length ≤ c.taken ∧
        (taken.length = c.taken → taken.length ≠ s.total → q ≤ c.stop)) := by
  have hrank := Candidate.rank_le_rank_iff.mp (hbest.rank_le _ h.ordered)
  by_cases henough : EnoughTaken s.required taken untaken
  · cases hs : c.satisfied with
    | true =>
        simp only [henough, hs, decide_true, lt_self_iff_false, false_or, true_and] at hrank
        exact ⟨fun _ => rfl, fun _ => by omega⟩
    | false =>
        have hlt : ¬ (true : Bool) < false := by decide
        simp [henough, hs, hlt] at hrank
  · refine ⟨fun h => absurd h henough, fun hs => ?_⟩
    have hs : c.satisfied = false := Bool.eq_false_iff.mpr fun h => henough (hs h)
    simp only [henough, hs, decide_false, lt_self_iff_false, false_or, true_and] at hrank
    omega

/-! ## The reply of a set -/

variable {required : Nat} {c : Candidate} {r : Reply GroupDiagnosis Forest}

/-- A best candidate that is enough comes of a largest order that is. -/
theorem exhausted_of_satisfied
    (hbest : Quorum.Best ⟨scope.source, elements.length, required⟩ path
      (Element.members scope elements) 0 p c) (hs : c.satisfied = true)
    (hr : r = .success ⟨c.nodes, c.taken == 0⟩ c.stop) :
    Exhausted scope path elements required p r := by
  obtain ⟨taken, untaken, horder, hcount, hsatisfied⟩ := hbest.ordered.setOrder
  have henough : EnoughTaken required taken untaken := hsatisfied.mp hs
  constructor
  · exact ⟨fun _ => ⟨taken, untaken, c.nodes, c.stop, horder, henough⟩, fun _ => ⟨_, _, hr⟩⟩
  · intro f q h
    rw [hr, Reply.success.injEq] at h
    obtain ⟨rfl, rfl⟩ := h
    refine ⟨taken, untaken, horder, henough, ?_⟩
    intro taken' untaken' ns' q' horder' henough'
    have hle := ((hbest.bounds horder').2 fun _ => henough').1
    rwa [hcount] at hle
  · intro h
    exact absurd ⟨_, _, hr⟩ h

/-- If the best candidate is not enough no order is, and the largest that stops last
is found. -/
theorem exhausted_of_unsatisfied (hrequired : required ≤ elements.length)
    (hbest : Quorum.Best ⟨scope.source, elements.length, required⟩ path
      (Element.members scope elements) 0 p c) (hs : c.satisfied = false)
    (hr : r = if c.taken = 0 then .failure ⟨0, .failed path p⟩ p
      else .failure ⟨c.taken, .partway path p (c.stop - p)⟩ p) :
    Exhausted scope path elements required p r := by
  obtain ⟨taken, untaken, horder, hcount, -⟩ := hbest.ordered.setOrder
  have hnot {taken' untaken' : List Element} {ns' : List Node} {q' : Nat}
      (h : SetOrder scope path elements p taken' untaken' ns' q') :
      ¬ EnoughTaken required taken' untaken' := by
    intro henough
    have hsatisfied := (hbest.bounds h).1 henough
    rw [hs] at hsatisfied
    cases hsatisfied
  have hle {taken' untaken' : List Element} {ns' : List Node} {q' : Nat}
      (h : SetOrder scope path elements p taken' untaken' ns' q') :
      taken'.length ≤ taken.length ∧ (taken'.length = taken.length → q' ≤ c.stop) := by
    obtain ⟨hlength, hstop⟩ := (hbest.bounds h).2 (by simp [hs])
    rw [hcount] at hlength hstop
    -- an order that takes every element would be enough
    have hfew : taken'.length ≠ elements.length := by
      intro hall
      refine hnot h ?_
      unfold EnoughTaken
      omega
    exact ⟨hlength, fun heq => hstop heq hfew⟩
  have hnone : ¬ ∃ f q, r = .success f q := by
    rintro ⟨f, q, h⟩
    rw [hr] at h
    by_cases hzero : c.taken = 0 <;> simp [hzero] at h
  constructor
  · refine ⟨fun h => absurd h hnone, ?_⟩
    rintro ⟨taken', untaken', ns', q', horder', henough⟩
    exact absurd henough (hnot horder')
  · intro f q h
    exact absurd ⟨f, q, h⟩ hnone
  · intro _
    by_cases hzero : c.taken = 0
    · rw [if_pos hzero] at hr
      refine Or.inl ⟨?_, hr⟩
      intro e he f q hrun
      by_contra hreads
      -- an element that can be taken is an order by itself
      obtain ⟨before, behind, rfl⟩ := List.mem_iff_append.mp he
      have hsplit : ([e] ++ (before ++ behind)).Perm (before ++ e :: behind) := by
        rw [List.singleton_append]
        exact List.perm_middle.symm
      have hrun : Taken path (Element.members scope [e]) p (f.nodes ++ []) q :=
        .cons hrun (Nat.lt_of_not_le hreads) (.nil q)
      have hlength := (hle ⟨hsplit, hrun⟩).1
      rw [List.length_singleton] at hlength
      omega
    · rw [if_neg hzero] at hr
      have hne : taken ≠ [] := by
        rintro rfl
        exact hzero hcount
      exact Or.inr ⟨taken, untaken, c.nodes, c.stop, hne, horder,
        fun _ _ _ _ h => hle h, hcount ▸ hr⟩

/-- **Sets.** Of the elements of a set every order is tried, unless an element that
committed tokens interrupts it or some element is not finished. -/
theorem anyOrder_exhausted (path : Path)
    (horderly : ∀ e ∈ elements, ForestRecognizer.Orderly scope.source (e.recognizer scope))
    (hp : p ≤ scope.source.size) (hrequired : required ≤ elements.length) :
    Exhausted scope path elements required p
        (anyOrder scope.source (Element.members scope elements) required path p) ∨
      Interrupted scope path elements p
        (anyOrder scope.source (Element.members scope elements) required path p) ∨
      anyOrder scope.source (Element.members scope elements) required path p = .unfinished := by
  have hrequired' : required ≤ (Element.members scope elements).length := by
    rwa [Element.length_members]
  rcases anyOrder_best path (members_orderly horderly) hp hrequired' with
    ⟨c, hbest, hr⟩ | ⟨d, hcommitted, hr⟩ | hr
  · rw [Element.length_members] at hbest
    refine Or.inl ?_
    cases hs : c.satisfied with
    | true => exact exhausted_of_satisfied hbest hs (by simpa only [hs, if_true] using hr)
    | false =>
        exact exhausted_of_unsatisfied hrequired hbest hs
          (by simpa only [hs, Bool.false_eq_true, if_false] using hr)
  · refine Or.inr (Or.inl ?_)
    obtain ⟨order, m, rest, ns, q, e, hperm, htaken, hq, hrun, he, rfl⟩ := hcommitted
    rw [Element.members_eq_map] at hperm
    obtain ⟨es, hes, hsplit⟩ := eq_map_of_perm_map hperm
    obtain ⟨taken, others, rfl, rfl, hothers⟩ := List.map_eq_append_iff.mp hes.symm
    obtain ⟨e', untaken, rfl, rfl, rfl⟩ := List.map_eq_cons_iff.mp hothers
    rw [← Element.members_eq_map] at htaken
    refine ⟨taken, e', untaken, ns, q, e, ⟨hsplit, htaken⟩, hq, hrun, he, ?_⟩
    rw [hr, List.length_map, Nat.zero_add]
  · exact Or.inr (Or.inr hr)

end

/-! ## Languages -/

section

variable {root : String} {productions : List Production} {l : Language}
variable (hbuild : Grammar.build root productions = .ok l.grammar)
variable {minimum : Option Nat} {elements : List Element} {g : Group}
variable (hset : Group.build (.set minimum) elements = .ok g)
variable (src : Source) {p : Nat} (hp : p ≤ src.size) (path : Path)

include hbuild hset hp

/-- In a grammar without violations every order is tried, unless an element
interrupts the set. -/
theorem Language.set_exhausted :
    Exhausted (l.fullScope src) path elements (Group.requirement minimum elements.length) p
        (g.recognizer (l.fullScope src) path p) ∨
      Interrupted (l.fullScope src) path elements p (g.recognizer (l.fullScope src) path p) := by
  obtain ⟨rfl, hrequired⟩ := Group.build_set hset
  have hfinishes : l.Finishes src (l.stage src) p :=
    l.finishes_of_stage_le hbuild (Nat.le_refl _) hp
  have horderly : ∀ e ∈ elements,
      ForestRecognizer.Orderly (l.fullScope src).source (e.recognizer (l.fullScope src)) :=
    fun e _ => (Kind.recognizer_orderly (l.scope_orderly src (l.stage src))).2 e
  have hsource : (l.fullScope src).source = src := l.scope_source src _
  have hp' : p ≤ (l.fullScope src).source.size := by rw [hsource]; exact hp
  have hfinished : Group.recognizer (l.fullScope src) ⟨.set minimum, elements⟩ path p ≠
      .unfinished := hfinishes.group _ path
  rw [Group.recognizer_set] at hfinished ⊢
  have hcases := anyOrder_exhausted path horderly hp' hrequired
  exact hcases.imp_right fun h => h.resolve_right hfinished

omit hbuild hset hp in
/-- Only an element that commits tokens and then fails interrupts a set. -/
theorem Language.not_interrupted {r : Reply GroupDiagnosis Forest}
    (hfails : ∀ e ∈ elements, ∀ q ≤ src.size, ∀ d m,
      e.recognizer (l.fullScope src) path q = .failure d m → d.cause.isIncomplete = false) :
    ¬ Interrupted (l.fullScope src) path elements p r := by
  rintro ⟨taken, e, untaken, ns, q, d, horder, hq, hrun, hincomplete, -⟩
  have he : e ∈ elements := horder.split.subset (by simp)
  have hsource : (l.fullScope src).source = src := l.scope_source src _
  rw [hfails e he q (hsource ▸ hq) d q hrun] at hincomplete
  cases hincomplete

/-- **Exhaustive sets.** If no element commits tokens and then fails, anywhere in the
input, a set is recognized just if some order of its elements is enough, and its reply
tells of a largest one. -/
theorem set_tries_every_order
    (hfails : ∀ e ∈ elements, ∀ q ≤ src.size, ∀ d m,
      e.recognizer (l.fullScope src) path q = .failure d m → d.cause.isIncomplete = false) :
    Exhausted (l.fullScope src) path elements (Group.requirement minimum elements.length) p
      (g.recognizer (l.fullScope src) path p) := by
  refine (Language.set_exhausted hbuild hset src hp path).resolve_right ?_
  exact Language.not_interrupted src path hfails

/-- **Permuted sets.** Two sets of the same elements, declared in different orders, are
both recognized or neither is, unless an element interrupts one of them. -/
theorem permuted_set_agrees {elements' : List Element} {g' : Group}
    (hset' : Group.build (.set minimum) elements' = .ok g') (hperm : elements.Perm elements') :
    ((∃ f q, g.recognizer (l.fullScope src) path p = .success f q) ↔
        ∃ f q, g'.recognizer (l.fullScope src) path p = .success f q) ∨
      Interrupted (l.fullScope src) path elements p (g.recognizer (l.fullScope src) path p) ∨
      Interrupted (l.fullScope src) path elements' p
        (g'.recognizer (l.fullScope src) path p) := by
  rcases Language.set_exhausted hbuild hset src hp path with h | h
  · rcases Language.set_exhausted hbuild hset' src hp path with h' | h'
    · refine Or.inl ?_
      rw [h.success_iff, h'.success_iff, hperm.length_eq]
      constructor
      · rintro ⟨taken, untaken, ns, q, horder, henough⟩
        exact ⟨taken, untaken, ns, q, horder.perm hperm, henough⟩
      · rintro ⟨taken, untaken, ns, q, horder, henough⟩
        exact ⟨taken, untaken, ns, q, horder.perm hperm.symm, henough⟩
    · exact Or.inr (Or.inr h')
  · exact Or.inr (Or.inl h)

end

/-! ## Sets of letters and pairs -/

/-- The letters `ab`, which once the first is read have to be completed. -/
def pairLanguage : Language := .ofGrammar ⟨"pair",
  [⟨"pair", .composite ⟨⟨.sequence, [.mk (.character 'a') .once, .mk (.character 'b') .once]⟩,
    some 1⟩, none⟩]⟩

theorem build_pair :
    Grammar.build "pair" pairLanguage.grammar.productions = .ok pairLanguage.grammar := rfl

/-- What the set of these elements makes of an input. -/
def setReply (elements : List Element) (text : String) : Reply GroupDiagnosis Forest :=
  Group.recognizer (pairLanguage.fullScope (Source.ofString text)) ⟨.set none, elements⟩
    (.root "set") 0

/-- A letter, and the same letter with another one behind it. -/
def overlapping : List Element :=
  [.mk (.character 'a') .once, .mk (.terminal (.literal ⟨['a', 'b'], true, by simp⟩)) .once]

/-- The element declared first can be taken first, but then the other one cannot. -/
theorem set_tries_every_order_overlapping :
    Group.build (.set none) overlapping = .ok ⟨.set none, overlapping⟩ ∧
      0 ≤ (Source.ofString "aba").size ∧
      (∀ e ∈ overlapping, ∀ q ≤ (Source.ofString "aba").size, ∀ d m,
        e.recognizer (pairLanguage.fullScope (Source.ofString "aba")) (.root "set") q =
          .failure d m → d.cause.isIncomplete = false) ∧
      Exhausted (pairLanguage.fullScope (Source.ofString "aba")) (.root "set") overlapping 2 0
        (setReply overlapping "aba") := by
  have hfails : ∀ e ∈ overlapping, ∀ q ≤ (Source.ofString "aba").size, ∀ d m,
      e.recognizer (pairLanguage.fullScope (Source.ofString "aba")) (.root "set") q =
        .failure d m → d.cause.isIncomplete = false := by
    intro e he q hq d m h
    change q ≤ 3 at hq
    simp only [overlapping, List.mem_cons, List.not_mem_nil, or_false] at he
    obtain rfl | rfl | rfl | rfl : q = 0 ∨ q = 1 ∨ q = 2 ∨ q = 3 := by omega
    all_goals
      rcases he with rfl | rfl <;> cases h <;> rfl
  have hset : Group.build (.set none) overlapping = .ok ⟨.set none, overlapping⟩ := rfl
  exact ⟨hset, by decide, hfails,
    set_tries_every_order build_pair hset _ (by decide) (.root "set") hfails⟩

/-- A letter, and a pair that begins with it. -/
def letterOrPair : List Element := [.mk (.character 'a') .once, .mk (.reference "pair") .once]

/-- Behind the letter the pair is complete; tried before the letter it is not, but it is
tried there only if it is declared first. -/
theorem permuted_set_disagrees :
    Group.build (.set none) letterOrPair = .ok ⟨.set none, letterOrPair⟩ ∧
      Group.build (.set none) letterOrPair.reverse = .ok ⟨.set none, letterOrPair.reverse⟩ ∧
      letterOrPair.Perm letterOrPair.reverse ∧
      (∃ f q, setReply letterOrPair "aab" = .success f q) ∧
      ¬ ∃ f q, setReply letterOrPair.reverse "aab" = .success f q := by
  refine ⟨rfl, rfl, (List.reverse_perm _).symm, ⟨_, _, rfl⟩, ?_⟩
  rintro ⟨f, q, h⟩
  cases h

theorem permuted_set_agrees_pair :
    Group.build (.set none) letterOrPair = .ok ⟨.set none, letterOrPair⟩ ∧
      Group.build (.set none) letterOrPair.reverse = .ok ⟨.set none, letterOrPair.reverse⟩ ∧
      letterOrPair.Perm letterOrPair.reverse ∧ 0 ≤ (Source.ofString "aba").size ∧
      (((∃ f q, setReply letterOrPair "aba" = .success f q) ↔
          ∃ f q, setReply letterOrPair.reverse "aba" = .success f q) ∨
        Interrupted (pairLanguage.fullScope (Source.ofString "aba")) (.root "set") letterOrPair 0
          (setReply letterOrPair "aba") ∨
        Interrupted (pairLanguage.fullScope (Source.ofString "aba")) (.root "set")
          letterOrPair.reverse 0 (setReply letterOrPair.reverse "aba")) := by
  have hset : Group.build (.set none) letterOrPair = .ok ⟨.set none, letterOrPair⟩ := rfl
  have hset' : Group.build (.set none) letterOrPair.reverse =
      .ok ⟨.set none, letterOrPair.reverse⟩ := rfl
  have hperm : letterOrPair.Perm letterOrPair.reverse := (List.reverse_perm _).symm
  exact ⟨hset, hset', hperm, by decide,
    permuted_set_agrees build_pair hset _ (by decide) (.root "set") hset' hperm⟩

end ConcreteSyntax
