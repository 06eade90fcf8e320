import ConcreteSyntax.Recognition

/-!
# How groups and repetitions answer

Every way of combining recognizers is described once by the calls it makes and by
the reply that comes of them. A sequence either gets through all its elements or
passes on the reply of the first that does not succeed; a choice either passes on
the reply of the first alternative that does not merely fail or fails itself; a
repetition makes a run of occurrences, which its cardinality judges. All that is
shown of groups later starts from these descriptions.
-/

namespace ConcreteSyntax

theorem Diagnosis.isIncomplete_eq_false_iff {d : Diagnosis} :
    d.isIncomplete = false ↔ d.isFailed = true := by
  cases d <;> simp [isIncomplete, isFailed]

namespace Reply

/-- Nothing is recognized by returning to a checkpoint. -/
theorem restoring_eq_success_iff {ε α : Type} {src : Source} {entry q : Nat} {r : Reply ε α}
    {v : α} : restoring src entry r = .success v q ↔ r = .success v q := by
  cases r with
  | failure e p =>
      unfold restoring
      cases src.seek entry <;> simp
  | _ => rfl

theorem toForest_eq_success_iff {r : Reply Diagnosis Node} {f : Forest} {q : Nat} :
    r.toForest = .success f q ↔ ∃ n, r = .success n q ∧ f = .single n := by
  cases r with
  | success n p =>
      simp only [toForest, map, mapFailure, success.injEq]
      constructor
      · rintro ⟨rfl, rfl⟩
        exact ⟨n, ⟨rfl, rfl⟩, rfl⟩
      · rintro ⟨_, ⟨rfl, rfl⟩, rfl⟩
        exact ⟨rfl, rfl⟩
  | _ => simp [toForest, map, mapFailure]

theorem mapFailure_eq_success_iff {ε ε' α : Type} {view : ε → ε'} {r : Reply ε α} {v : α}
    {q : Nat} : r.mapFailure view = .success v q ↔ r = .success v q := by
  cases r <;> simp [mapFailure]

/-! Changed or placed elsewhere, a reply is unfinished just if it was. -/

@[simp] theorem restoring_eq_unfinished_iff {ε α : Type} {src : Source} {entry : Nat}
    {r : Reply ε α} : restoring src entry r = .unfinished ↔ r = .unfinished := by
  cases r with
  | failure e p =>
      unfold restoring
      cases src.seek entry <;> simp
  | _ => rfl

@[simp] theorem mapFailure_eq_unfinished_iff {ε ε' α : Type} {view : ε → ε'} {r : Reply ε α} :
    r.mapFailure view = .unfinished ↔ r = .unfinished := by
  cases r <;> simp [mapFailure]

@[simp] theorem toForest_eq_unfinished_iff {r : Reply Diagnosis Node} :
    r.toForest = .unfinished ↔ r = .unfinished := by
  cases r <;> simp [toForest, map, mapFailure]

end Reply

/-- A list of images with one of them singled out is that of a list in which one is
singled out. -/
theorem map_eq_append_cons {α β : Type} {f : α → β} {as : List α} {pre post : List β} {b : β}
    (h : as.map f = pre ++ b :: post) :
    ∃ before a behind, as = before ++ a :: behind ∧ pre = before.map f ∧ b = f a := by
  obtain ⟨before, rest, rfl, rfl, hrest⟩ := List.map_eq_append_iff.mp h
  obtain ⟨a, behind, rfl, rfl, -⟩ := List.map_eq_cons_iff.mp hrest
  exact ⟨before, a, behind, rfl, rfl, rfl⟩

/-! ## Sequences -/

/-- Recognizers that succeed one after the other, from a position to the last
one's end, with the nodes of all. -/
inductive InTurn (path : Path) : List ForestRecognizer → Nat → List Node → Nat → Prop where
  | nil (p : Nat) : InTurn path [] p [] p
  | cons {e : ForestRecognizer} {rest : List ForestRecognizer} {p q r : Nat} {f : Forest}
      {ns : List Node} (first : e path p = .success f q) (others : InTurn path rest q ns r) :
      InTurn path (e :: rest) p (f.nodes ++ ns) r

/-- What a group's diagnosis becomes behind so many elements: the first element is
not counted, whatever it got through itself. -/
def GroupDiagnosis.behind (elements : Nat) (d : GroupDiagnosis) : GroupDiagnosis :=
  d.withCount (if elements = 0 then 0 else elements + d.count)

/-- **Sequences.** All elements succeed in turn, or the first that does not
decides. -/
theorem sequenceFrom_cases (path : Path) : ∀ (index : Nat) (es : List ForestRecognizer) (p : Nat),
    (∃ ns q, InTurn path es p ns q ∧ sequenceFrom index es path p = .success (.ofNodes ns) q) ∨
      ∃ pre e post ns m, es = pre ++ e :: post ∧ InTurn path pre p ns m ∧
        (∀ f q, e path m ≠ .success f q) ∧
        sequenceFrom index es path p =
          (e path m).mapFailure (GroupDiagnosis.behind (index + pre.length))
  | _, [], p => Or.inl ⟨[], p, .nil p, rfl⟩
  | index, e :: rest, p => by
      cases he : e path p with
      | success f q =>
          rcases sequenceFrom_cases path (index + 1) rest q with
            ⟨ns, r, hrun, hr⟩ | ⟨pre, e', post, ns, m, rfl, hrun, hm, hr⟩
          · refine Or.inl ⟨f.nodes ++ ns, r, .cons he hrun, ?_⟩
            simp [sequenceFrom, he, hr, Reply.map, Forest.ofNodes]
          · refine Or.inr ⟨e :: pre, e', post, f.nodes ++ ns, m, rfl, .cons he hrun, hm, ?_⟩
            have hindex : index + 1 + pre.length = index + (e :: pre).length := by
              rw [List.length_cons]
              omega
            simp only [sequenceFrom, he, hr, hindex]
            cases h : e' path m with
            | success f q => exact absurd h (hm f q)
            | _ => rfl
      | failure d q =>
          refine Or.inr ⟨[], e, rest, [], p, rfl, .nil p, by simp [he], ?_⟩
          simp [sequenceFrom, he, Reply.mapFailure, GroupDiagnosis.behind]
      | fault f =>
          refine Or.inr ⟨[], e, rest, [], p, rfl, .nil p, by simp [he], ?_⟩
          simp [sequenceFrom, he, Reply.mapFailure]
      | unfinished =>
          refine Or.inr ⟨[], e, rest, [], p, rfl, .nil p, by simp [he], ?_⟩
          simp [sequenceFrom, he, Reply.mapFailure]

theorem sequence_success {src : Source} {path : Path} {es : List ForestRecognizer} {f : Forest}
    {p q : Nat} (h : sequence src es path p = .success f q) : InTurn path es p f.nodes q := by
  rw [sequence, Reply.restoring_eq_success_iff] at h
  rcases sequenceFrom_cases path 0 es p with
    ⟨ns, m, hrun, hr⟩ | ⟨pre, e, post, ns, m, -, -, hm, hr⟩
  · rw [hr, Reply.success.injEq] at h
    obtain ⟨rfl, rfl⟩ := h
    exact hrun
  · rw [hr, Reply.mapFailure_eq_success_iff] at h
    exact absurd h (hm f q)

/-! ## Choices -/

/-- Recognizers that fail one after the other without committing a token, each
starting where the one before left the cursor. -/
inductive AllFail (path : Path) : List ForestRecognizer → Nat → Nat → Prop where
  | nil (p : Nat) : AllFail path [] p p
  | cons {e : ForestRecognizer} {rest : List ForestRecognizer} {p q r : Nat}
      {d : GroupDiagnosis} (first : e path p = .failure d q)
      (uncommitted : d.cause.isIncomplete = false) (others : AllFail path rest q r) :
      AllFail path (e :: rest) p r

/-- Does the reply of an alternative decide the choice? All replies do but those
of failures that committed no token. -/
def Reply.decides (r : Reply GroupDiagnosis Forest) : Prop :=
  ∀ d q, r = .failure d q → d.cause.isIncomplete = true

/-- The diagnosis kept is that of some alternative. -/
theorem furthest_uncommitted {sofar : Option GroupDiagnosis} {d : GroupDiagnosis}
    (hsofar : ∀ b ∈ sofar, b.cause.isIncomplete = false) (hd : d.cause.isIncomplete = false) :
    ∀ b ∈ some (furthest sofar d), b.cause.isIncomplete = false := by
  intro b hb
  obtain rfl := Option.mem_some_iff.mp hb
  cases sofar with
  | none => exact hd
  | some best =>
      simp only [furthest]
      split
      · exact hd
      · exact hsofar best rfl

/-- **Choices.** The first alternative that decides is the answer; if none does,
the choice fails without committing a token. -/
theorem choiceAfter_cases (path : Path) : ∀ (sofar : Option GroupDiagnosis)
    (es : List ForestRecognizer) (p : Nat), (∀ b ∈ sofar, b.cause.isIncomplete = false) →
    (∃ pre e post m, es = pre ++ e :: post ∧ AllFail path pre p m ∧ (e path m).decides ∧
        choiceAfter sofar es path p = e path m) ∨
      ∃ d q, AllFail path es p q ∧ d.cause.isIncomplete = false ∧ d.count = 0 ∧
        choiceAfter sofar es path p = .failure d q
  | none, [], p, _ => Or.inr ⟨⟨0, .failed path p⟩, p, .nil p, rfl, rfl, rfl⟩
  | some d, [], p, h => Or.inr ⟨d.withCount 0, p, .nil p, h d rfl, rfl, rfl⟩
  | sofar, e :: rest, p, h => by
      have decided (hd : (e path p).decides) (hc : choiceAfter sofar (e :: rest) path p = e path p) :
          ∃ pre e' post m, e :: rest = pre ++ e' :: post ∧ AllFail path pre p m ∧
            (e' path m).decides ∧ choiceAfter sofar (e :: rest) path p = e' path m :=
        ⟨[], e, rest, p, rfl, .nil p, hd, hc⟩
      cases he : e path p with
      | failure d q =>
          cases hd : d.cause.isIncomplete with
          | true =>
              refine Or.inl (decided ?_ (by simp [choiceAfter, he, hd]))
              rw [he]
              rintro d' q' ⟨⟩
              exact hd
          | false =>
              have hc : choiceAfter sofar (e :: rest) path p =
                  choiceAfter (some (furthest sofar d)) rest path q := by
                simp [choiceAfter, he, hd]
              rw [hc]
              rcases choiceAfter_cases path _ rest q (furthest_uncommitted h hd) with
                ⟨pre, e', post, m, rfl, hpre, hm, hr⟩ | ⟨d', r, hall, hd', hcount, hr⟩
              · exact Or.inl ⟨e :: pre, e', post, m, rfl, .cons he hd hpre, hm, hr⟩
              · exact Or.inr ⟨d', r, .cons he hd hall, hd', hcount, hr⟩
      | success f q =>
          exact Or.inl (decided (by simp [he, Reply.decides]) (by simp [choiceAfter, he]))
      | fault f =>
          exact Or.inl (decided (by simp [he, Reply.decides]) (by simp [choiceAfter, he]))
      | unfinished =>
          exact Or.inl (decided (by simp [he, Reply.decides]) (by simp [choiceAfter, he]))

/-! ## Repetitions -/

namespace Run

/-! What an occurrence put first does not change. -/

@[simp] theorem after_occurrences (f : Forest) (run : Run) :
    (run.after f).occurrences = run.occurrences := rfl

@[simp] theorem after_ending (f : Forest) (run : Run) : (run.after f).ending = run.ending := rfl

@[simp] theorem after_nodes (f : Forest) (run : Run) :
    (run.after f).nodes = f.nodes ++ run.nodes := rfl

end Run

namespace Cardinality

variable {c : Cardinality} {occurrence : Nat → Nat → Reply GroupDiagnosis Forest}

/-- A run of occurrences from a position to another, `done` having been recognized
before. -/
inductive Repeats (c : Cardinality) (occurrence : Nat → Nat → Reply GroupDiagnosis Forest) :
    Nat → Nat → Run → Nat → Prop where
  | full {done p : Nat} (hfull : c.isFull done = true) :
      Repeats c occurrence done p ⟨[], done, .full⟩ p
  | idle {done p : Nat} {f : Forest} (room : c.isFull done = false)
      (step : occurrence done p = .success f p) :
      Repeats c occurrence done p ⟨f.nodes, done + 1, .idle⟩ p
  | more {done p q r : Nat} {f : Forest} {run : Run} (room : c.isFull done = false)
      (step : occurrence done p = .success f q) (moved : q ≠ p)
      (others : Repeats c occurrence (done + 1) q run r) :
      Repeats c occurrence done p (run.after f) r
  | stopped {done p q : Nat} {d : GroupDiagnosis} (room : c.isFull done = false)
      (step : occurrence done p = .failure d q) :
      Repeats c occurrence done p ⟨[], done, .stopped d⟩ q

theorem repeats_of_runFrom : ∀ {bound done p : Nat} {run : Run} {q : Nat},
    c.runFrom occurrence bound done p = .success run q → c.Repeats occurrence done p run q
  | bound, done, p, run, q, h => by
      rw [runFrom.eq_def] at h
      cases hfull : c.isFull done with
      | true =>
          simp only [hfull, if_true, Reply.success.injEq] at h
          obtain ⟨rfl, rfl⟩ := h
          exact .full hfull
      | false =>
          simp only [hfull, Bool.false_eq_true, if_false] at h
          cases bound with
          | zero => simp at h
          | succ bound =>
              cases hocc : occurrence done p with
              | success f m =>
                  simp only [hocc] at h
                  by_cases hm : m = p
                  · subst hm
                    simp only [if_true, Reply.success.injEq] at h
                    obtain ⟨rfl, rfl⟩ := h
                    exact .idle hfull hocc
                  · simp only [hm, if_false] at h
                    cases hrest : c.runFrom occurrence bound (done + 1) m with
                    | success run' q' =>
                        simp only [hrest, Reply.map, Reply.success.injEq] at h
                        obtain ⟨rfl, rfl⟩ := h
                        exact .more hfull hocc hm (repeats_of_runFrom hrest)
                    | failure e q' => exact nomatch e
                    | fault f => simp [hrest, Reply.map] at h
                    | unfinished => simp [hrest, Reply.map] at h
              | failure d m =>
                  simp only [hocc, Reply.success.injEq] at h
                  obtain ⟨rfl, rfl⟩ := h
                  exact .stopped hfull hocc
              | fault f => simp [hocc] at h
              | unfinished => simp [hocc] at h

theorem isFull_iff {n : Nat} : c.isFull n = true ↔ ∃ m ∈ c.max, m ≤ n := by
  unfold isFull
  cases h : c.max with
  | none => simp
  | some m => simp

theorem accepts_iff {n : Nat} : c.accepts n = true ↔ c.min ≤ n ∧ ∀ m ∈ c.max, n ≤ m := by
  unfold accepts
  cases h : c.max with
  | none => simp
  | some m => simp

/-- No maximum is exceeded before it is reached. -/
theorem succ_le_max {n m : Nat} (room : c.isFull n = false) (hm : m ∈ c.max) : n + 1 ≤ m := by
  rcases Nat.lt_or_ge n m with h | h
  · exact h
  · rw [isFull_iff.mpr ⟨m, hm, h⟩] at room
    exact absurd room (by simp)

namespace Repeats

theorem done_le {done p q : Nat} {run : Run} (h : c.Repeats occurrence done p run q) :
    done ≤ run.occurrences := by
  induction h with
  | full _ => exact Nat.le_refl _
  | idle _ _ => exact Nat.le_succ _
  | more _ _ _ _ ih => exact Nat.le_of_succ_le ih
  | stopped _ _ => exact Nat.le_refl _

theorem le_max {done p q : Nat} {run : Run} (h : c.Repeats occurrence done p run q)
    (hdone : ∀ m ∈ c.max, done ≤ m) : ∀ m ∈ c.max, run.occurrences ≤ m := by
  induction h with
  | full _ => exact hdone
  | idle room _ =>
      intro m hm
      exact succ_le_max room hm
  | more room _ _ _ ih => exact ih fun m hm => succ_le_max room hm
  | stopped _ _ => exact hdone

/-- A run that reaches the maximum reaches the minimum. -/
theorem min_le_of_full {done p q : Nat} {run : Run} (h : c.Repeats occurrence done p run q) :
    run.ending = .full → c.min ≤ run.occurrences := by
  induction h with
  | full hfull =>
      intro _
      obtain ⟨m, hm, hle⟩ := isFull_iff.mp hfull
      exact Nat.le_trans (c.bounds_le m hm).2 hle
  | idle _ _ => simp
  | more _ _ _ _ ih => exact ih
  | stopped _ _ => simp

theorem nodes_eq_nil {done p q : Nat} {run : Run} (h : c.Repeats occurrence done p run q)
    (hn : run.occurrences = done) : run.nodes = [] := by
  cases h with
  | full _ => rfl
  | idle _ _ => exact absurd hn (Nat.succ_ne_self _)
  | more _ _ _ others => exact absurd others.done_le (by rw [← hn]; exact Nat.not_succ_le_self _)
  | stopped _ _ => rfl

end Repeats

/-- The run is enough: so many occurrences as are required, or the last one read
nothing. An occurrence that committed tokens is never passed over. -/
def Suffices (c : Cardinality) (run : Run) : Prop :=
  (run.ending = .idle ∨ c.min ≤ run.occurrences) ∧
    ∀ d, run.ending = .stopped d → d.cause.isIncomplete = false

/-- The forest of a run: no nodes from no occurrence are those of an optional
step. -/
def forestOf (run : Run) : Forest := ⟨run.nodes, run.occurrences == 0⟩

theorem accept_eq {p q : Nat} {run : Run} (h : c.Repeats occurrence 0 p run q)
    (hmin : run.ending = .idle ∨ c.min ≤ run.occurrences) (position : Nat) :
    c.accept run position = .success (forestOf run) position := by
  have hmax : ∀ m ∈ c.max, run.occurrences ≤ m := h.le_max fun m _ => Nat.zero_le m
  have hforest : (if run.occurrences = 0 then .optionalEmpty else .ofNodes run.nodes) =
      forestOf run := by
    by_cases hzero : run.occurrences = 0
    · simp [hzero, forestOf, Forest.optionalEmpty, h.nodes_eq_nil hzero]
    · simp [hzero, forestOf, Forest.ofNodes]
  have haccepts : run.ending = .idle ∨ c.accepts run.occurrences = true :=
    hmin.imp id fun hmin => accepts_iff.mpr ⟨hmin, hmax⟩
  rw [accept, hforest]
  cases hend : run.ending <;> simp_all

/-- **Judgement of a run.** It is enough, or the occurrence that stopped it
decides. -/
theorem judge_cases {p q : Nat} {run : Run} (h : c.Repeats occurrence 0 p run q) :
    (c.Suffices run ∧ c.judge run q = .success (forestOf run) q) ∨
      ∃ d, run.ending = .stopped d ∧ (d.cause.isIncomplete = true ∨ run.occurrences < c.min) ∧
        c.judge run q = .failure (d.withCount (run.occurrences + d.count)) q := by
  cases hend : run.ending with
  | full =>
      have hmin := h.min_le_of_full hend
      exact Or.inl ⟨⟨Or.inr hmin, by simp [hend]⟩, by
        simp only [judge, hend]; exact accept_eq h (Or.inr hmin) q⟩
  | idle =>
      exact Or.inl ⟨⟨Or.inl hend, by simp [hend]⟩, by
        simp only [judge, hend]; exact accept_eq h (Or.inl hend) q⟩
  | stopped d =>
      by_cases hd : d.cause.isIncomplete = true ∨ run.occurrences < c.min
      · refine Or.inr ⟨d, rfl, hd, ?_⟩
        simp only [judge, hend]
        rw [if_pos hd]
      · obtain ⟨hfailed, hmin⟩ := not_or.mp hd
        have hmin := Nat.le_of_not_lt hmin
        refine Or.inl ⟨⟨Or.inr hmin, ?_⟩, ?_⟩
        · intro d' hd'
          obtain rfl := RunEnd.stopped.inj (hend.symm.trans hd')
          exact Bool.eq_false_iff.mpr hfailed
        · simp only [judge, hend]
          rw [if_neg hd]
          exact accept_eq h (Or.inr hmin) q

/-- **Repetitions.** The run is enough, or it is not and the cursor returns; else
some occurrence gives no answer, or the bound is too small. -/
theorem repeating_cases (c : Cardinality) (src : Source) (bound : Nat)
    (occurrence : Nat → ForestRecognizer) (path : Path) (p : Nat) :
    (∃ run q, c.Repeats (fun done => occurrence done path) 0 p run q ∧ c.Suffices run ∧
        c.repeating src bound occurrence path p = .success (forestOf run) q) ∨
      (∃ run q d, c.Repeats (fun done => occurrence done path) 0 p run q ∧
        run.ending = .stopped d ∧ (d.cause.isIncomplete = true ∨ run.occurrences < c.min) ∧
        c.repeating src bound occurrence path p =
          .restoring src p (.failure (d.withCount (run.occurrences + d.count)) q)) ∨
      (∃ f, c.runFrom (fun done => occurrence done path) bound 0 p = .fault f ∧
        c.repeating src bound occurrence path p = .fault f) ∨
      c.runFrom (fun done => occurrence done path) bound 0 p = .unfinished ∧
        c.repeating src bound occurrence path p = .unfinished := by
  unfold repeating
  cases hrun : c.runFrom (fun done => occurrence done path) bound 0 p with
  | success run q =>
      have hrepeats := repeats_of_runFrom hrun
      rcases judge_cases hrepeats with ⟨hs, hj⟩ | ⟨d, hend, hd, hj⟩
      · exact Or.inl ⟨run, q, hrepeats, hs, by simp [hj, Reply.restoring]⟩
      · exact Or.inr (Or.inl ⟨run, q, d, hrepeats, hend, hd, by simp [hj]⟩)
  | failure e _ => exact nomatch e
  | fault f => exact Or.inr (Or.inr (Or.inl ⟨f, rfl, rfl⟩))
  | unfinished => exact Or.inr (Or.inr (Or.inr ⟨rfl, rfl⟩))

theorem repeating_success {src : Source} {bound p q : Nat} {path : Path} {r : ForestRecognizer}
    {f : Forest} (h : c.repeating src bound (fun _ => r) path p = .success f q) :
    ∃ run, c.Repeats (fun _ => r path) 0 p run q ∧ c.Suffices run ∧ f = forestOf run := by
  rcases c.repeating_cases src bound (fun _ => r) path p with
    ⟨run, m, hrun, hsuffices, hr⟩ | ⟨run, m, d, -, -, -, hr⟩ | ⟨e, -, hr⟩ | ⟨-, hr⟩ <;> rw [hr] at h
  · rw [Reply.success.injEq] at h
    obtain ⟨rfl, rfl⟩ := h
    exact ⟨run, hrun, hsuffices, rfl⟩
  · rw [Reply.restoring_eq_success_iff] at h
    cases h
  · cases h
  · cases h

end Cardinality

end ConcreteSyntax
