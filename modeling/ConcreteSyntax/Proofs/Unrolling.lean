import ConcreteSyntax.Proofs.Outcomes
import ConcreteSyntax.Proofs.Steps

/-!
# Repetitions unrolled

A repetition counts up to what its cardinality allows. It could as well count down what is
still required and what is still allowed: then it no longer matters how many occurrences
there were, and the required ones come off as so many steps in order. All this is so only
if no occurrence succeeds without reading a token, since a repetition takes such a one as
the last, and as enough.
-/

namespace ConcreteSyntax

/-! ## Counting down -/

namespace Step

/-- The step moves forward, within an input of so many tokens, whenever it succeeds. -/
def Moves (size : Nat) (s : Step) : Prop :=
  ∀ p ≤ size, ∀ ns q, s p = .success ns q → p < q ∧ q ≤ size

/-- The step `least` times, and as often again as it succeeds, but not more than `most`
times in all. If it fails after that with no token committed, nothing is wrong. The first
argument after the step bounds how often it is tried. -/
def upTo (s : Step) : (bound least : Nat) → (most : Option Nat) → Step
  | bound, least, most, p =>
    if most = some 0 then .success [] p
    else match bound with
      | 0 => .unfinished
      | bound + 1 =>
        match s p with
        | .success ns q => (upTo s bound (least - 1) (most.map (· - 1)) q).map (ns ++ ·)
        | .failure d q => if d.isIncomplete ∨ 0 < least then .failure d q else .success [] q
        | .fault f => .fault f
        | .unfinished => .unfinished

variable {s : Step} {size : Nat}

@[simp] theorem upTo_full (s : Step) (bound least p : Nat) :
    s.upTo bound least (some 0) p = .success [] p := by
  rw [upTo.eq_def]
  rfl

/-- Any bound beyond the tokens that are left will do. -/
theorem upTo_bound (hs : s.Moves size) : ∀ {bound bound' least p : Nat} {most : Option Nat},
    p ≤ size → size < p + bound → size < p + bound' →
      s.upTo bound least most p = s.upTo bound' least most p
  | 0, _, _, p, _, hp, h, _ => absurd hp (Nat.not_le_of_lt h)
  | _ + 1, 0, _, p, _, hp, _, h => absurd hp (Nat.not_le_of_lt h)
  | bound + 1, bound' + 1, least, p, most, hp, h, h' => by
      rw [upTo, upTo]
      split
      · rfl
      · cases hstep : s p with
        | success ns q =>
            obtain ⟨hpq, hq⟩ := hs p hp ns q hstep
            have ih : s.upTo bound (least - 1) (most.map (· - 1)) q =
                s.upTo bound' (least - 1) (most.map (· - 1)) q :=
              upTo_bound hs hq (by omega) (by omega)
            simp only [ih]
        | _ => rfl

/-- **Required occurrences.** So many as are required come first, in order. -/
theorem upTo_eq_andThen (hs : s.Moves size) (bound' : Nat) : ∀ {least bound p : Nat}
    {most : Option Nat}, p ≤ size → size < p + bound → size < p + bound' →
      (∀ m ∈ most, least ≤ m) →
      s.upTo bound least most p =
        (inOrder (List.replicate least s) p).andThen (s.upTo bound' 0 (most.map (· - least)))
  | 0, bound, p, most, hp, h, h', _ => by
      have hmost : most.map (· - 0) = most := by simp
      rw [List.replicate_zero, inOrder, Reply.nil_andThen, hmost]
      exact upTo_bound hs hp h h'
  | least + 1, 0, p, _, hp, h, _, _ => absurd hp (Nat.not_le_of_lt h)
  | least + 1, bound + 1, p, most, hp, h, h', hmost => by
      have hroom : most ≠ some 0 := by
        rintro rfl
        exact absurd (hmost 0 rfl) (Nat.not_succ_le_zero least)
      have hrest : (most.map (· - 1)).map (· - least) = most.map (· - (least + 1)) := by
        rw [Option.map_map]
        congr 1
        funext m
        simp only [Function.comp]
        omega
      rw [upTo, if_neg hroom, List.replicate_succ, inOrder, Reply.andThen_assoc]
      cases hstep : s p with
      | success ns q =>
          obtain ⟨hpq, hq⟩ := hs p hp ns q hstep
          have hleast : ∀ m ∈ most.map (· - 1), least ≤ m := by
            intro m hm
            obtain ⟨m', hm', rfl⟩ := Option.mem_map.mp hm
            exact Nat.le_sub_of_add_le (hmost m' hm')
          have hbound : size < q + bound := by omega
          have ih := upTo_eq_andThen hs bound' hq hbound (by omega) hleast
          simp only [Nat.add_sub_cancel, ih, hrest]
          rfl
      | failure d q => simp [Reply.andThen]
      | fault f => rfl
      | unfinished => rfl

end Step

/-- A recognizer that never succeeds where it was entered moves forward. -/
theorem ForestRecognizer.Orderly.step_moves {src : Source} {path : Path} {r : ForestRecognizer}
    (h : ForestRecognizer.Orderly src r)
    (hmoves : ∀ p ≤ src.size, ∀ f q, r path p = .success f q → q ≠ p) :
    (r.step path).Moves src.size := by
  intro p hp ns q hq
  obtain ⟨f, hrun, -⟩ := Reply.uncounted_eq_success_iff.mp hq
  obtain ⟨hpq, hsize, -⟩ := (h path p hp).advances f q hrun
  exact ⟨Nat.lt_of_le_of_ne hpq (hmoves p hp f q hrun).symm, hsize⟩

/-! ## Repetitions count down -/

namespace Cardinality

/-- What becomes of a run, or of what kept it from its end. -/
def judged (c : Cardinality) : Reply Empty Run → Reply GroupDiagnosis Forest
  | .success run q => c.judge run q
  | .failure e _ => nomatch e
  | .fault f => .fault f
  | .unfinished => .unfinished

theorem repeating_eq_judged (c : Cardinality) (src : Source) (bound : Nat)
    (occurrence : Nat → ForestRecognizer) (path : Path) (p : Nat) :
    c.repeating src bound occurrence path p =
      .restoring src p (c.judged (c.runFrom (fun done => occurrence done path) bound 0 p)) := rfl

variable {c : Cardinality} {src : Source} {path : Path} {r : ForestRecognizer}

/-- No further occurrence is just as good as enough are. -/
theorem uncounted_accept_nil {done : Nat} {ending : RunEnd} (hmin : c.min ≤ done)
    (hmax : ∀ m ∈ c.max, done ≤ m) (p : Nat) :
    (c.accept ⟨[], done, ending⟩ p).uncounted = .success [] p := by
  have haccepts : c.accepts done = true := accepts_iff.mpr ⟨hmin, hmax⟩
  rw [accept, if_pos (by simp [haccepts])]
  split <;> rfl

theorem judge_stopped {run : Run} {d : GroupDiagnosis} (h : run.ending = .stopped d) (q : Nat) :
    c.judge run q = if d.cause.isIncomplete ∨ run.occurrences < c.min then
      .failure (d.withCount (run.occurrences + d.count)) q else c.accept run q := by
  simp only [judge, h]

/-! An occurrence put first adds its nodes, and nothing else. -/

theorem uncounted_accept_after {run : Run} (f : Forest) (h : 0 < run.occurrences) (q : Nat) :
    (c.accept (run.after f) q).uncounted = (c.accept run q).uncounted.map (f.nodes ++ ·) := by
  simp only [accept, Run.after_occurrences, Run.after_ending, Run.after_nodes, Nat.ne_of_gt h,
    if_false]
  rw [apply_ite Reply.uncounted, apply_ite Reply.uncounted, apply_ite (Reply.map _)]
  rfl

theorem uncounted_judge_after {run : Run} (f : Forest) (h : 0 < run.occurrences) (q : Nat) :
    (c.judge (run.after f) q).uncounted = (c.judge run q).uncounted.map (f.nodes ++ ·) := by
  have haccept := uncounted_accept_after (c := c) f h q
  cases hend : run.ending with
  | stopped d =>
      have hafter : (run.after f).ending = .stopped d := hend
      rw [judge_stopped hafter, judge_stopped hend, Run.after_occurrences]
      split
      · rfl
      · exact haccept
  | _ =>
      simp only [judge, Run.after_ending, hend]
      exact haccept

theorem uncounted_judged_after {run : Reply Empty Run} (f : Forest)
    (h : ∀ w q, run = .success w q → 0 < w.occurrences) :
    (c.judged (run.map (Run.after f))).uncounted =
      (c.judged run).uncounted.map (f.nodes ++ ·) := by
  cases run with
  | success w q => exact uncounted_judge_after f (h w q rfl) q
  | failure e q => exact nomatch e
  | fault f => rfl
  | unfinished => rfl

/-- Nothing more is allowed just if as many occurrences were recognized as may be. -/
theorem map_sub_eq_zero_iff {done : Nat} :
    c.max.map (· - done) = some 0 ↔ c.isFull done = true := by
  rw [isFull_iff]
  cases c.max with
  | none => simp
  | some m => simp [Nat.sub_eq_zero_iff_le]

/-- **Counting down.** After so many occurrences, so many less are required, and so many
less are allowed. -/
theorem uncounted_judged_runFrom (hr : (r.step path).Moves src.size) :
    ∀ (bound : Nat) {done p : Nat}, p ≤ src.size → (∀ m ∈ c.max, done ≤ m) →
      (c.judged (c.runFrom (fun _ => r path) bound done p)).uncounted =
        (r.step path).upTo bound (c.min - done) (c.max.map (· - done)) p := by
  intro bound done p hp hmax
  rw [Step.upTo.eq_def, runFrom.eq_def]
  simp only [map_sub_eq_zero_iff]
  by_cases hfull : c.isFull done = true
  · obtain ⟨m, hm, hle⟩ := isFull_iff.mp hfull
    have hmin : c.min ≤ done := Nat.le_trans (c.bounds_le m hm).2 hle
    rw [if_pos hfull, if_pos hfull, judged, judge]
    exact uncounted_accept_nil hmin hmax p
  rw [if_neg hfull, if_neg hfull]
  cases bound with
  | zero => rfl
  | succ bound =>
      cases hrun : r path p with
      | success f q =>
          have hstep : r.step path p = .success f.nodes q := by
            rw [ForestRecognizer.step, hrun]
            rfl
          obtain ⟨hpq, hq⟩ := hr p hp _ _ hstep
          have hroom : ∀ m ∈ c.max, done + 1 ≤ m := fun m hm =>
            succ_le_max (Bool.eq_false_iff.mpr hfull) hm
          have ih := uncounted_judged_runFrom hr bound hq hroom
          have hrest : (c.max.map (· - done)).map (· - 1) = c.max.map (· - (done + 1)) := by
            rw [Option.map_map]
            rfl
          simp only [hstep, Nat.ne_of_gt hpq, if_false, Nat.sub_sub, hrest, ← ih]
          refine uncounted_judged_after f fun w m hw => ?_
          exact Nat.lt_of_lt_of_le (Nat.succ_pos done) (repeats_of_runFrom hw).done_le
      | failure d q =>
          have hstep : r.step path p = .failure d.cause q := by
            rw [ForestRecognizer.step, hrun]
            rfl
          simp only [hstep, judged, Nat.sub_pos_iff_lt]
          rw [judge_stopped rfl]
          by_cases hd : d.cause.isIncomplete = true ∨ done < c.min
          · rw [if_pos hd, if_pos hd]
            rfl
          · rw [if_neg hd, if_neg hd]
            exact uncounted_accept_nil (Nat.le_of_not_lt fun h => hd (.inr h)) hmax q
      | fault f => simp only [ForestRecognizer.step, hrun]; rfl
      | unfinished => simp only [ForestRecognizer.step, hrun]; rfl

/-- **Repetitions.** Without the counts a repetition counts down. -/
theorem repeating_step (hr : (r.step path).Moves src.size) (bound : Nat) {p : Nat}
    (hp : p ≤ src.size) :
    ForestRecognizer.step (c.repeating src bound fun _ => r) path p =
      ((r.step path).upTo bound c.min c.max p).backTo p := by
  have h := uncounted_judged_runFrom (c := c) hr bound hp fun m _ => Nat.zero_le m
  rw [ForestRecognizer.step, repeating_eq_judged, Reply.uncounted_restoring hp, h]
  simp

/-! ## Unrolled into sequences -/

section

variable {bound p : Nat} (horderly : ForestRecognizer.Orderly src r)
variable (hr : (r.step path).Moves src.size) (hbound : src.size < bound) (hp : p ≤ src.size)

include hr hbound in
/-- What is required comes first, in order. -/
theorem repeating_step_eq_andThen {q : Nat} (hq : q ≤ src.size) :
    ForestRecognizer.step (c.repeating src bound fun _ => r) path q =
      ((Step.inOrder (List.replicate c.min (r.step path)) q).andThen
        ((r.step path).upTo bound 0 (c.max.map (· - c.min)))).backTo q := by
  have hroom : ∀ m ∈ c.max, c.min ≤ m := fun m hm => (c.bounds_le m hm).2
  rw [repeating_step hr bound hq,
    Step.upTo_eq_andThen hr bound hq (by omega) (by omega) hroom]

include hr hbound in
theorem exactly_step (hmax : c.max = some c.min) {q : Nat} (hq : q ≤ src.size) :
    ForestRecognizer.step (c.repeating src bound fun _ => r) path q =
      (Step.inOrder (List.replicate c.min (r.step path)) q).backTo q := by
  have hrest : (r.step path).upTo bound 0 (c.max.map (· - c.min)) = fun m => .success [] m := by
    funext m
    simp [hmax]
  rw [repeating_step_eq_andThen hr hbound hq, hrest, Reply.andThen_nil]

include horderly hr hbound hp

/-- So many occurrences and no more are as many single ones in sequence. -/
theorem exactly_step_eq_sequence (hmax : c.max = some c.min) :
    ForestRecognizer.step (c.repeating src bound fun _ => r) path p =
      (sequence src (List.replicate c.min (once.repeating src bound fun _ => r))).step path p := by
  have honce : ∀ q ≤ src.size, ForestRecognizer.step (once.repeating src bound fun _ => r) path q =
      r.step path q := fun q hq => once_step horderly (Nat.zero_lt_of_lt hbound) hq
  rw [exactly_step hr hbound hmax hp, sequence_step _ hp, List.map_replicate]
  congr 1
  refine (Step.inOrder_congr ?_ ?_ p hp).symm
  · exact List.forall₂_iff_get.mpr ⟨by simp, fun i h h' => by simpa using honce⟩
  · intro s hs
    rw [List.eq_of_mem_replicate hs]
    exact horderly.step_within path

/-- The occurrences that are required and those that are allowed beyond them can be taken
one after the other. -/
theorem step_eq_sequence {first rest : Cardinality} (hfirst : first.min = c.min)
    (hfull : first.max = some c.min) (hnone : rest.min = 0)
    (hrest : rest.max = c.max.map (· - c.min)) :
    ForestRecognizer.step (c.repeating src bound fun _ => r) path p =
      (sequence src [first.repeating src bound fun _ => r,
        rest.repeating src bound fun _ => r]).step path p := by
  have hbegin : ForestRecognizer.step (first.repeating src bound fun _ => r) path p =
      (Step.inOrder (List.replicate c.min (r.step path)) p).backTo p := by
    rw [exactly_step hr hbound (hfull.trans (congrArg some hfirst.symm)) hp, hfirst]
  have hwithin : Step.Within src.size
      (ForestRecognizer.step (first.repeating src bound fun _ => r) path) :=
    (first.repeating_orderly bound horderly).step_within path
  have hgoesOn : ∀ q ≤ src.size, ForestRecognizer.step (rest.repeating src bound fun _ => r) path q =
      ((r.step path).upTo bound 0 (c.max.map (· - c.min)) q).backTo q := by
    intro q hq
    rw [repeating_step hr bound hq, hnone, hrest]
  rw [repeating_step_eq_andThen hr hbound hp, sequence_step _ hp]
  simp only [List.map_cons, List.map_nil, Step.inOrder]
  rw [← Reply.backTo_andThen p p, ← hbegin]
  congr 1
  refine Reply.andThen_congr fun ns q hq => ?_
  rw [Reply.andThen_nil, hgoesOn q (hwithin p hp ns q hq)]

end

/-! ## Unrolled elements -/

/-- Bounds that allow some occurrence, and as many as they require, are accepted as they are. -/
theorem exists_ofBounds {least : Nat} {most : Option Nat} (h : ∀ m ∈ most, 1 ≤ m ∧ least ≤ m) :
    ∃ c, ofBounds least most = .ok c ∧ c.min = least ∧ c.max = most := by
  refine ⟨⟨least, most, h⟩, ?_, rfl, rfl⟩
  cases most with
  | none => rfl
  | some m =>
      obtain ⟨h₁, h₂⟩ := h m rfl
      rw [ofBounds, dif_neg (Nat.ne_of_gt h₁), dif_neg (Nat.not_lt_of_le h₂)]

theorem exists_exactly {n : Nat} (h : 1 ≤ n) :
    ∃ c, exactly n = .ok c ∧ c.min = n ∧ c.max = some n := by
  refine exists_ofBounds ?_
  rintro m ⟨⟩
  exact ⟨h, Nat.le_refl n⟩

end Cardinality

/-- But for counts the recognizers answer alike: both succeed with the same nodes and at the
same end, or both fail for the same reason and put the cursor back. -/
structure ForestRecognizer.AlikeAt (src : Source) (path : Path) (p : Nat)
    (r r' : ForestRecognizer) : Prop where
  same : (r path p).uncounted = (r' path p).uncounted
  first : (r path p).Backtracks src p
  second : (r' path p).Backtracks src p

/-- **Unrolling.** Let the grammar be without violations, and let no occurrence of a kind
succeed without reading a token. Just so many occurrences are as many elements in sequence
that occur once; and at least so many occurrences are just so many, and then any number of
those that are allowed beyond them. -/
theorem repetition_unrolls {root : String} {productions : List Production} {l : Language}
    (hbuild : Grammar.build root productions = .ok l.grammar) (src : Source) (path : Path)
    (k : Kind)
    (hmoves : ∀ q ≤ src.size, ∀ f m,
      k.recognizer (l.fullScope src) path q = .success f m → m ≠ q)
    {p : Nat} (hp : p ≤ src.size) :
    (∀ n, 1 ≤ n → ∃ c g, Cardinality.exactly n = .ok c ∧
        Group.build .sequence (List.replicate n (.mk k .once)) = .ok g ∧
        ForestRecognizer.AlikeAt src path p ((Element.mk k c).recognizer (l.fullScope src))
          (g.recognizer (l.fullScope src))) ∧
      ∀ least most, 1 ≤ least → (∀ m ∈ most, least < m) → ∃ c first rest g,
        Cardinality.ofBounds least most = .ok c ∧ Cardinality.exactly least = .ok first ∧
        Cardinality.ofBounds 0 (most.map (· - least)) = .ok rest ∧
        Group.build .sequence [.mk k first, .mk k rest] = .ok g ∧
        ForestRecognizer.AlikeAt src path p ((Element.mk k c).recognizer (l.fullScope src))
          (g.recognizer (l.fullScope src)) := by
  have hsource : (l.fullScope src).source = src := l.scope_source src _
  have hbound : src.size < (l.fullScope src).bound := by
    rw [Language.fullScope, Language.scope_bound]
    exact l.size_lt_stage src
  have horderly : ForestRecognizer.Orderly src (k.recognizer (l.fullScope src)) := by
    have h := (Kind.recognizer_orderly (l.scope_orderly src (l.stage src))).1 k
    rwa [l.scope_source] at h
  have hstep := horderly.step_moves hmoves
  have hanswers : l.Answers src p := Language.answers_of_build hbuild hp
  have alike (c : Cardinality) (es : List Element)
      (h : ForestRecognizer.step ((Element.mk k c).recognizer (l.fullScope src)) path p =
        (sequence src (es.map (Element.recognizer (l.fullScope src)))).step path p) :
      ForestRecognizer.AlikeAt src path p ((Element.mk k c).recognizer (l.fullScope src))
        (Group.recognizer (l.fullScope src) ⟨.sequence, es⟩) := by
    refine ⟨?_, hanswers.element _ path, hanswers.group _ path⟩
    rw [Group.recognizer_sequence, hsource]
    exact h
  refine ⟨fun n hn => ?_, fun least most hleast hmost => ?_⟩
  · obtain ⟨c, hc, rfl, hmax⟩ := Cardinality.exists_exactly hn
    have hcopies : List.replicate c.min (Element.mk k .once) ≠ [] :=
      mt (List.replicate_eq_nil_iff _).mp (Nat.ne_of_gt hn)
    refine ⟨c, _, hc, Group.build_of_ne_nil (by simp) hcopies, alike c _ ?_⟩
    rw [List.map_replicate, Element.recognizer_mk, Element.recognizer_mk, hsource]
    exact Cardinality.exactly_step_eq_sequence horderly hstep hbound hp hmax
  · have hallowed : ∀ m ∈ most, 1 ≤ m ∧ least ≤ m := fun m hm =>
      ⟨hleast.trans (hmost m hm).le, (hmost m hm).le⟩
    have hleft : ∀ m ∈ most.map (· - least), 1 ≤ m ∧ 0 ≤ m := by
      intro m hm
      obtain ⟨m', hm', rfl⟩ := Option.mem_map.mp hm
      exact ⟨Nat.sub_pos_of_lt (hmost m' hm'), Nat.zero_le _⟩
    obtain ⟨c, hc, rfl, rfl⟩ := Cardinality.exists_ofBounds hallowed
    obtain ⟨first, hfirst, hmin, hfull⟩ := Cardinality.exists_exactly hleast
    obtain ⟨rest, hrest, hnone, hmax⟩ := Cardinality.exists_ofBounds hleft
    refine ⟨c, first, rest, _, hc, hfirst, hrest, rfl, alike c _ ?_⟩
    simp only [List.map_cons, List.map_nil, Element.recognizer_mk, hsource]
    exact Cardinality.step_eq_sequence horderly hstep hbound hp hmin hfull hnone hmax

/-- Three items, one of which is a list. -/
def threeItems : Source := .ofString "(a)aa"

/-- Every item of a list reads something. -/
theorem item_moves : ∀ q ≤ threeItems.size, ∀ f m, (Kind.reference "item").recognizer
    (listLanguage.fullScope threeItems) (.root "list") q = .success f m → m ≠ q := by
  rintro q hq f m hrun rfl
  have hstage := listLanguage.scope_idleOnlyIf threeItems (listLanguage.stage threeItems)
  have hidle := (Kind.idleOnlyIf (listLanguage.scope_orderly _ _) hstage).1 (.reference "item")
  have hnullable := hidle _ _ _ (by simpa using hq) hrun
  exact absurd hnullable (by decide)

/-- Three items are an item after an item after an item; two and more are two, and then any
more. -/
theorem repetition_unrolls_items :
    Grammar.build "list" lists = .ok listLanguage.grammar ∧
      (∀ q ≤ threeItems.size, ∀ f m, (Kind.reference "item").recognizer
        (listLanguage.fullScope threeItems) (.root "list") q = .success f m → m ≠ q) ∧
      0 ≤ threeItems.size ∧
      (∃ c g, Cardinality.exactly 3 = .ok c ∧
        Group.build .sequence (List.replicate 3 (.mk (.reference "item") .once)) = .ok g ∧
        ForestRecognizer.AlikeAt threeItems (.root "list") 0
          ((Element.mk (.reference "item") c).recognizer (listLanguage.fullScope threeItems))
          (g.recognizer (listLanguage.fullScope threeItems))) ∧
      ∃ c first rest g, Cardinality.ofBounds 2 none = .ok c ∧ Cardinality.exactly 2 = .ok first ∧
        Cardinality.ofBounds 0 none = .ok rest ∧
        Group.build .sequence [.mk (.reference "item") first, .mk (.reference "item") rest] =
          .ok g ∧
        ForestRecognizer.AlikeAt threeItems (.root "list") 0
          ((Element.mk (.reference "item") c).recognizer (listLanguage.fullScope threeItems))
          (g.recognizer (listLanguage.fullScope threeItems)) := by
  obtain ⟨hexactly, hsplit⟩ := repetition_unrolls build_lists threeItems (.root "list")
    (.reference "item") item_moves (Nat.zero_le _)
  exact ⟨build_lists, item_moves, Nat.zero_le _, hexactly 3 (by decide),
    hsplit 2 none (by decide) (by simp)⟩

end ConcreteSyntax
