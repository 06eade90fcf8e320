import ConcreteSyntax.Proofs.Commitment
import ConcreteSyntax.Proofs.Diagnoses

/-!
# What is promoted

A rule with a threshold promotes a failure if enough elements were counted and tokens
were read before it. Neither is looked up in the input. The elements are those the
group counts, among them ones that read nothing, and the tokens are those up to the
position the failure names, which may have been read by what was given up since. So
a rule may be promoted at an element before which nothing was read. What decides is
whether the element fails where it was entered; terminals and sets always do, and
sequences and references need not.
-/

namespace ConcreteSyntax

/-- Only a failure that lies further on is promoted, and only with the threshold met. -/
theorem Composite.conclude_isFailed_iff {r : Composite} {threshold : Nat}
    (hr : r.threshold = some threshold) (path : Path) (start : Nat) {d : GroupDiagnosis}
    (hd : d.cause.isFailed = true) :
    (r.conclude path start d).isFailed = true ↔
      d.count < threshold ∨ d.cause.position ≤ start := by
  have hstop : d.cause.stop = d.cause.position := by
    cases h : d.cause <;> simp_all [Diagnosis.isFailed, Diagnosis.stop, Diagnosis.length]
  simp only [conclude, hr, hd, hstop, true_and]
  by_cases hpromoted : threshold ≤ d.count ∧ 0 < d.cause.position - start
  · simp only [if_pos hpromoted, Diagnosis.promoted, Diagnosis.isFailed, Bool.false_eq_true,
      false_iff]
    omega
  · simp only [if_neg hpromoted, hd, true_iff]
    omega

/-! ## Where elements fail -/

/-- Whenever something of this kind fails and commits nothing, the failure is where it
was entered. A choice tells what stopped one of its alternatives, and one that is
required more than once may fail behind others. -/
inductive Kind.FailsInPlace : Kind → Prop where
  | terminal (rule : Terminal) : FailsInPlace (.terminal rule)
  | set (minimum : Option Nat) (elements : List Element) :
      FailsInPlace (.group (.set minimum) elements)
  | choice {elements : List Element} (each : ∀ k c, .mk k c ∈ elements → FailsInPlace k)
      (once : ∀ k c, Element.mk k c ∈ elements → c.min ≤ 1) :
      FailsInPlace (.group .choice elements)

/-- Whenever something of this kind fails with no element counted, the failure is where
it was entered: a sequence counts all elements behind the first. -/
inductive Kind.OpensInPlace : Kind → Prop where
  | whole {k : Kind} (inPlace : k.FailsInPlace) : OpensInPlace k
  | sequence {k : Kind} (c : Cardinality) (rest : List Element) (inPlace : k.FailsInPlace)
      (once : c.min ≤ 1) : OpensInPlace (.group .sequence (.mk k c :: rest))

section

variable {src : Source} {path : Path} {p q : Nat} {d : GroupDiagnosis}

/-- If one occurrence is enough, or none was counted, it is the first that failed. -/
theorem Cardinality.first_fails {c : Cardinality} {bound : Nat} {r : ForestRecognizer}
    (hp : p ≤ src.size) (h : c.repeating src bound (fun _ => r) path p = .failure d q)
    (hd : d.cause.isFailed = true) (hfirst : c.min ≤ 1 ∨ d.count = 0) :
    ∃ m, r path p = .failure d m := by
  rcases c.repeating_cases src bound (fun _ => r) path p with
    ⟨run, m, -, -, heq⟩ | ⟨run, m, e, hrun, hend, hstops, heq⟩ | ⟨f, -, heq⟩ | ⟨-, heq⟩ <;>
    rw [heq] at h
  · cases h
  · obtain ⟨⟨_, h⟩, -⟩ := (Reply.restoring_eq_failure_iff hp).mp h
    obtain ⟨rfl, -⟩ := Reply.failure.inj h
    have hfailed : e.cause.isIncomplete = false := Diagnosis.isIncomplete_eq_false_iff.mpr hd
    have hfew : run.occurrences < c.min := hstops.resolve_left (by simp [hfailed])
    have hnone : run.occurrences = 0 := by
      rcases hfirst with hmin | hcount
      · omega
      · simp only [GroupDiagnosis.withCount] at hcount
        omega
    cases hrun with
    | full _ => cases hend
    | idle _ _ => cases hend
    | more _ _ _ others => exact absurd others.done_le (by simp_all)
    | stopped _ step =>
        obtain rfl := RunEnd.stopped.inj hend
        exact ⟨_, by simpa [GroupDiagnosis.withCount] using step⟩
  · cases h
  · cases h

/-- A sequence that counts no element fails with its first. -/
theorem sequence_first_fails {e : ForestRecognizer} {rest : List ForestRecognizer}
    (hp : p ≤ src.size) (h : sequence src (e :: rest) path p = .failure d q)
    (hcount : d.count = 0) : ∃ d' m, e path p = .failure d' m ∧ d'.cause = d.cause := by
  rw [sequence, Reply.restoring_eq_failure_iff hp] at h
  obtain ⟨⟨m, h⟩, -⟩ := h
  rcases sequenceFrom_cases path 0 (e :: rest) p with
    ⟨ns, r, -, hr⟩ | ⟨pre, e', post, ns, r, hsplit, hrun, -, hr⟩ <;> rw [hr] at h
  · cases h
  · obtain ⟨d', hfails, rfl⟩ := Reply.mapFailure_eq_failure_iff.mp h
    cases hrun with
    | nil _ =>
        obtain ⟨rfl, rfl⟩ := List.cons.inj hsplit
        exact ⟨d', m, hfails, rfl⟩
    | cons _ _ =>
        simp [GroupDiagnosis.behind, GroupDiagnosis.withCount] at hcount

/-- A set that commits nothing has taken no member. -/
theorem anyOrder_position {members : List Member} {required : Nat}
    (horderly : ∀ m ∈ members, ForestRecognizer.Orderly src m.recognizer) (hp : p ≤ src.size)
    (h : anyOrder src members required path p = .failure d q) (hd : d.cause.isFailed = true) :
    d.cause.position = p := by
  rcases anyOrder_failure horderly hp h with hcause | ⟨stop, -, -, hcause⟩ |
    ⟨order, m, rest, ns, t, e, -, -, -, -, hincomplete, rfl⟩
  · rw [hcause]
    rfl
  · rw [hcause] at hd
    cases hd
  · have hfailed : e.cause.isIncomplete = false := Diagnosis.isIncomplete_eq_false_iff.mpr hd
    rw [hfailed] at hincomplete
    cases hincomplete

end

section

variable {scope : Scope} {path : Path} {p q : Nat} {d : GroupDiagnosis} {k : Kind}
variable (horderly : ∀ symbol, NodeRecognizer.Orderly scope.source (scope.production symbol))
variable (hp : p ≤ scope.source.size)

include horderly hp

theorem Kind.FailsInPlace.position_eq (hk : k.FailsInPlace)
    (h : k.recognizer scope path p = .failure d q) (hd : d.cause.isFailed = true) :
    d.cause.position = p := by
  obtain ⟨-, helements⟩ := Kind.recognizer_orderly horderly
  induction hk generalizing d q with
  | terminal rule =>
      rw [Kind.recognizer, Reply.toForest_eq_failure_iff] at h
      exact (Terminal.recognize_failure hp h.1).2
  | set minimum elements =>
      rw [Kind.recognizer, Aggregation.recognizer] at h
      exact anyOrder_position (members_orderly fun e _ => helements e) hp h hd
  | @choice elements _ once ih =>
      rw [Kind.recognizer, Aggregation.recognizer, Element.map_recognizer_members,
        ConcreteSyntax.choice] at h
      rcases choiceAfter_failure (List.forall_mem_map.mpr fun e _ => helements e) hp h with
        hcause | ⟨b, hb, -⟩ | ⟨r, hr, e, hrun, hcause⟩
      · rw [hcause]
        rfl
      · cases hb
      · obtain ⟨⟨k, c⟩, hmem, rfl⟩ := List.mem_map.mp hr
        rw [Element.recognizer_mk] at hrun
        rw [hcause] at hd ⊢
        obtain ⟨m, hfirst⟩ := Cardinality.first_fails hp hrun hd (.inl (once k c hmem))
        exact ih k c hmem hfirst hd

theorem Kind.OpensInPlace.position_eq (hk : k.OpensInPlace)
    (h : k.recognizer scope path p = .failure d q) (hd : d.cause.isFailed = true)
    (hcount : d.count = 0) : d.cause.position = p := by
  cases hk with
  | whole inPlace => exact inPlace.position_eq horderly hp h hd
  | @sequence k c rest inPlace once =>
      rw [Kind.recognizer, Aggregation.recognizer, Element.map_recognizer_members,
        List.map_cons, Element.recognizer_mk] at h
      obtain ⟨e, _, hfirst, hcause⟩ := sequence_first_fails hp h hcount
      rw [← hcause] at hd ⊢
      obtain ⟨m, hrun⟩ := Cardinality.first_fails hp hfirst hd (.inl once)
      exact inPlace.position_eq horderly hp hrun hd

end

/-! ## Rules with a threshold -/

/-- **Promotion.** Let the elements of a sequence before one read nothing, and let this
one fail, with nothing committed and none of its own elements counted. The rule fails
where it was entered, and commits nothing either just if the threshold asks for more
elements than stand before or the failure lies where the rule was entered. There it
does lie if the element is of a kind that opens in place. -/
theorem promotion_without_progress (l : Language) {src : Source} {p : Nat} (hp : p ≤ src.size)
    (path : Path) {before behind : List Element} {e : Element} {threshold : Nat} {r : Composite}
    (hrule : Composite.build ⟨.sequence, before ++ e :: behind⟩ (some threshold) = .ok r)
    {ns : List Node}
    (hbefore : InTurn path (before.map (Element.recognizer (l.fullScope src))) p ns p)
    {d : GroupDiagnosis} {m : Nat}
    (hfails : e.recognizer (l.fullScope src) path p = .failure d m)
    (hd : d.cause.isFailed = true) (hcount : d.count = 0) :
    ∃ d', r.recognizer (l.fullScope src) path p = .failure d' p ∧
      (d'.isFailed = true ↔ before.length < threshold ∨ d.cause.position = p) ∧
      (e.kind.OpensInPlace → d'.isFailed = true) := by
  have hsource : (l.fullScope src).source = src := l.scope_source src _
  have hscope : p ≤ (l.fullScope src).source.size := hsource.symm ▸ hp
  have horderly := l.scope_orderly src (l.stage src)
  have hdiagnoses := (Kind.recognizer_diagnoses horderly (l.scope_diagnoses src (l.stage src))).2
  obtain rfl : r = ⟨⟨.sequence, before ++ e :: behind⟩, some threshold⟩ := by
    unfold Composite.build at hrule
    split at hrule
    · cases hrule
    · exact (Except.ok.inj hrule).symm
  have hgroup : Group.recognizer (l.fullScope src) ⟨.sequence, before ++ e :: behind⟩ path p =
      .failure (d.behind before.length) p := by
    rw [Group.recognizer_sequence, List.map_append, List.map_cons]
    simpa using hbefore.sequence_fails hscope hfails (behind.map (Element.recognizer _))
  have hbehind : (d.behind before.length).count = before.length := by
    simp only [GroupDiagnosis.behind, GroupDiagnosis.withCount, hcount]
    split <;> omega
  have hentry := (hdiagnoses e path p d m hscope hfails).entry_le_position
  have hdecides : (Composite.conclude ⟨⟨.sequence, before ++ e :: behind⟩, some threshold⟩ path p
      (d.behind before.length)).isFailed = true ↔
      before.length < threshold ∨ d.cause.position = p := by
    rw [Composite.conclude_isFailed_iff rfl path p (d := d.behind before.length) hd, hbehind]
    exact or_congr Iff.rfl ⟨fun hle => Nat.le_antisymm hle hentry, Nat.le_of_eq⟩
  refine ⟨_, by simp only [Composite.recognizer, hgroup, if_true], hdecides, fun hkind => ?_⟩
  obtain ⟨k, c⟩ := e
  rw [Element.recognizer_mk] at hfails
  obtain ⟨_, hfirst⟩ := Cardinality.first_fails hscope hfails hd (.inr hcount)
  exact hdecides.mpr (.inr (hkind.position_eq horderly hscope hfirst hd hcount))

/-- A row is a letter, which may be left out, and a pair of others. Once either is
recognized it has to be completed. -/
def rowLanguage : Language := .ofGrammar ⟨"row",
  [⟨"row", .composite ⟨⟨.sequence,
      [.mk (.character 'x') .optional, .mk (.reference "pair") .once]⟩, some 1⟩, none⟩,
    ⟨"pair", .composite ⟨⟨.sequence,
      [.mk (.character 'a') .once, .mk (.character 'b') .once]⟩, none⟩, none⟩]⟩

/-- The letter is left out and the pair fails with no element counted, yet the rule is
promoted, for a token that was read in the pair and given back with it. -/
theorem promoted_without_progress :
    Grammar.build "row" rowLanguage.grammar.productions = .ok rowLanguage.grammar ∧
      ∃ r d d', Composite.build ⟨.sequence, [.mk (.character 'x') .optional] ++
            [.mk (.reference "pair") .once]⟩ (some 1) = .ok r ∧
        InTurn (.root "row") ([.mk (.character 'x') .optional].map
          (Element.recognizer (rowLanguage.fullScope (Source.ofString "ac")))) 0 [] 0 ∧
        (Element.mk (.reference "pair") .once).recognizer
          (rowLanguage.fullScope (Source.ofString "ac")) (.root "row") 0 = .failure d 0 ∧
        d.cause.isFailed = true ∧ d.count = 0 ∧
        r.recognizer (rowLanguage.fullScope (Source.ofString "ac")) (.root "row") 0 =
          .failure d' 0 ∧
        d'.isIncomplete = true := by
  have hbefore : InTurn (.root "row") ([.mk (.character 'x') .optional].map
      (Element.recognizer (rowLanguage.fullScope (Source.ofString "ac")))) 0 [] 0 :=
    .cons (f := .optionalEmpty) rfl (.nil 0)
  exact ⟨rfl, _, _, _, rfl, hbefore, rfl, rfl, rfl, rfl, rfl⟩

/-- With the pair spelt out, a wrong first letter promotes nothing. -/
theorem promotion_without_progress_letters :
    0 ≤ (Source.ofString "z").size ∧
      ∃ r d, Composite.build ⟨.sequence, [.mk (.character 'x') .optional] ++
            [.mk (.character 'a') .once, .mk (.character 'b') .once]⟩ (some 1) = .ok r ∧
        r.recognizer (rowLanguage.fullScope (Source.ofString "z")) (.root "row") 0 =
          .failure d 0 ∧
        d.isFailed = true := by
  have hbefore : InTurn (.root "row") ([.mk (.character 'x') .optional].map
      (Element.recognizer (rowLanguage.fullScope (Source.ofString "z")))) 0 [] 0 :=
    .cons (f := .optionalEmpty) rfl (.nil 0)
  have hrule : Composite.build ⟨.sequence, [.mk (.character 'x') .optional] ++
      .mk (.character 'a') .once :: [.mk (.character 'b') .once]⟩ (some 1) = .ok _ := rfl
  obtain ⟨d, hr, -, hd⟩ := promotion_without_progress rowLanguage (Nat.zero_le _) (.root "row")
    hrule hbefore rfl rfl rfl
  exact ⟨Nat.zero_le _, _, d, rfl, hr, hd (.whole (.terminal _))⟩

end ConcreteSyntax
