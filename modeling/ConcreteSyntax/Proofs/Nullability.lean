import ConcreteSyntax.Proofs.Backtracking
import ConcreteSyntax.Proofs.Grammar.Rounds

/-!
# Recognition without reading

What succeeds without reading a token is nullable. The converse need not hold: the
analysis knows nothing of the input, of the order of alternatives or of
validators.
-/

namespace ConcreteSyntax

variable {src : Source} {scope : Scope} {path : Path} {p q : Nat}

/-- Only if `nullable` does the recognizer succeed where it was entered. -/
def Recognizer.IdleOnlyIf {ε α : Type} (nullable : Bool) (src : Source) (r : Recognizer ε α) :
    Prop :=
  ∀ path p v, p ≤ src.size → r path p = .success v p → nullable = true

/-! ## Groups and repetitions -/

/-- Elements that read nothing in all read nothing each. -/
theorem InTurn.idle {es : List ForestRecognizer} {ns : List Node} (h : InTurn path es p ns q)
    (hes : ∀ e ∈ es, ForestRecognizer.Orderly src e) (hp : p ≤ src.size) (hq : q = p) :
    ∀ e ∈ es, ∃ f, e path p = .success f p := by
  induction h with
  | nil p =>
      intro e he
      exact absurd he List.not_mem_nil
  | @cons e rest p m r f ns first others ih =>
      have hrest : ∀ e ∈ rest, ForestRecognizer.Orderly src e :=
        fun e he => hes e (List.mem_cons_of_mem _ he)
      obtain ⟨hpm, hm, -⟩ := (hes _ List.mem_cons_self path _ hp).advances _ _ first
      obtain ⟨hmr, -, -⟩ := others.bounds hrest hm
      -- no element can go back, so none has moved
      obtain rfl : m = p := by omega
      intro e he
      rcases List.mem_cons.mp he with rfl | he
      · exact ⟨f, first⟩
      · exact ih hrest hm hq e he

/-- A repetition that reads nothing required nothing or had an occurrence that
read nothing. -/
theorem Cardinality.repeating_idle {c : Cardinality} {bound : Nat} {r : ForestRecognizer}
    {f : Forest} (hr : ForestRecognizer.Orderly src r) (hp : p ≤ src.size)
    (h : c.repeating src bound (fun _ => r) path p = .success f p) :
    c.min = 0 ∨ ∃ f, r path p = .success f p := by
  have hocc : ∀ (_ : Nat) q, q ≤ src.size → (r path q).Orderly Forest.Within src q :=
    fun _ q hq => hr path q hq
  obtain ⟨run, hrun, hsuffices, -⟩ := repeating_success h
  cases hrun with
  | full hfull =>
      obtain ⟨m, hm, hle⟩ := isFull_iff.mp hfull
      exact absurd (c.bounds_le m hm).1 (by omega)
  | idle _ step => exact Or.inr ⟨_, step⟩
  | more _ step moved others =>
      -- an occurrence that moved the cursor leaves no way back
      obtain ⟨h₁, h₂, -⟩ := (hocc 0 _ hp).advances _ _ step
      obtain ⟨h₃, -, -⟩ := others.bounds hocc h₂
      omega
  | stopped _ _ =>
      rcases hsuffices.1 with hend | hmin
      · cases hend
      · exact Or.inl (Nat.le_zero.mp hmin)

/-! ## Rules -/

/-- **Elements.** A kind or an element that reads nothing is nullable. -/
theorem Kind.idleOnlyIf {nullable : String → Bool}
    (horderly : ∀ symbol, NodeRecognizer.Orderly scope.source (scope.production symbol))
    (hidle : ∀ symbol, Recognizer.IdleOnlyIf (nullable symbol) scope.source
      (scope.production symbol)) :
    (∀ k : Kind, Recognizer.IdleOnlyIf (k.isNullable nullable) scope.source
        (k.recognizer scope)) ∧
      ∀ e : Element, Recognizer.IdleOnlyIf (e.isNullable nullable) scope.source
        (e.recognizer scope) := by
  obtain ⟨hkinds, helements⟩ := Kind.recognizer_orderly horderly
  apply Kind.induction
  · intro symbol path p f hp h
    rw [Kind.recognizer, Reply.toForest_eq_success_iff] at h
    obtain ⟨n, hrun, -⟩ := h
    exact hidle symbol _ p n hp hrun
  · intro rule path p f hp h
    rw [Kind.recognizer, Reply.toForest_eq_success_iff] at h
    obtain ⟨n, hrun, -⟩ := h
    obtain ⟨seg, hreads, -⟩ := Terminal.recognize_success hp hrun
    exact hreads.isNullable rfl
  · intro aggregation elements ih path p f hp h
    have horder : ∀ r ∈ elements.map (Element.recognizer scope),
        ForestRecognizer.Orderly scope.source r :=
      List.forall_mem_map.mpr fun e _ => helements e
    simp only [Kind.recognizer, Kind.isNullable, Element.nullability_eq_map] at h ⊢
    cases aggregation with
    | sequence =>
        simp only [Aggregation.recognizer, Element.map_recognizer_members] at h
        simp only [Aggregation.isNullable, List.all_map, List.all_eq_true, Function.comp, id_eq]
        intro e he
        obtain ⟨f, hf⟩ := (sequence_success h).idle horder hp rfl _ (List.mem_map_of_mem he)
        exact ih e he path p f hp hf
    | choice =>
        simp only [Aggregation.recognizer, Element.map_recognizer_members] at h
        simp only [Aggregation.isNullable, List.any_map, List.any_eq_true, Function.comp, id_eq]
        obtain ⟨r, hr, hf⟩ := choice_success horder hp h
        obtain ⟨e, he, rfl⟩ := List.mem_map.mp hr
        exact ⟨e, he, ih e he path p f hp hf⟩
    | set minimum =>
        have hmembers := members_orderly fun e (_ : e ∈ elements) => helements e
        obtain ⟨order, rest, hperm, htaken, henough⟩ := anyOrder_success hmembers hp h
        -- no member is taken, so those left out are all of them
        obtain rfl := htaken.eq_nil
        rw [List.nil_append] at hperm
        rw [List.length_nil, Nat.zero_add, (hperm.filter _).length_eq, Element.members_eq_map,
          List.length_map, List.filter_map, List.length_map] at henough
        exact decide_eq_true henough
  · intro kind cardinality ih path p f hp h
    rw [Element.recognizer_mk] at h
    simp only [Element.isNullable, Element.isOptional, Bool.or_eq_true, beq_iff_eq]
    rcases Cardinality.repeating_idle (hkinds kind) hp h with hmin | ⟨f, hf⟩
    · exact Or.inl hmin
    · exact Or.inr (ih path p f hp hf)

theorem Rule.idleOnlyIf {nullable : String → Bool} (r : Rule)
    (horderly : ∀ symbol, NodeRecognizer.Orderly scope.source (scope.production symbol))
    (hidle : ∀ symbol, Recognizer.IdleOnlyIf (nullable symbol) scope.source
      (scope.production symbol)) :
    Recognizer.IdleOnlyIf (r.isNullable nullable) scope.source (r.recognizer scope) := by
  intro path p n hp h
  cases r with
  | terminal rule =>
      obtain ⟨seg, hreads, -⟩ := Terminal.recognize_success hp h
      exact hreads.isNullable rfl
  | composite r =>
      rw [Rule.recognizer] at h
      obtain ⟨f, hrun, -⟩ :=
        Composite.recognizer_success (r.group.recognizer_orderly horderly) hp h
      rw [← Group.recognizer_toKind] at hrun
      exact (Kind.idleOnlyIf horderly hidle).1 _ path p f hp hrun

/-- **Nullable productions.** A production that reads nothing is nullable, at every
stage. -/
theorem Language.scope_idleOnlyIf (l : Language) (src : Source) (n : Nat) : ∀ symbol,
    Recognizer.IdleOnlyIf (l.grammar.nullable.contains symbol) (l.scope src n).source
      ((l.scope src n).production symbol) := by
  induction n with
  | zero =>
      intro symbol path p v _ h
      cases h
  | succ n ih =>
      intro symbol path p v hp h
      rw [scope_source] at hp
      obtain ⟨r, hfind, hrule, -⟩ := scope_success hp h
      have hnullable := r.rule.idleOnlyIf (l.scope_orderly src n) ih path p v (by simpa using hp)
        hrule
      have hmem := l.grammar.mem_nullable (List.mem_of_find?_eq_some hfind) hnullable
      rwa [List.contains_iff_mem, ← Grammar.symbol_of_find? hfind]

end ConcreteSyntax
