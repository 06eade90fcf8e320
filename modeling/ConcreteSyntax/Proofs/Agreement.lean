import ConcreteSyntax.Proofs.Outcomes
import ConcreteSyntax.Proofs.Translation

/-!
# Recognizers that follow parsing expressions

A recognizer follows an expression if, wherever it is entered, its reply has the
outcome that the expression has there. Sequences, choices and repetitions of
recognizers that follow expressions follow the expressions put together likewise.
-/

namespace ConcreteSyntax

open ParsingExpression

/-! ## Outcomes of recognition -/

/-- The reply agrees with an outcome: it succeeds at the position where parsing
ends, or it fails without committing a token and parsing fails. -/
structure Reply.Follows {ε α : Type} (failed : ε → Bool) (outcome : Option Nat → Prop)
    (r : Reply ε α) : Prop where
  ends : ∀ v q, r = .success v q → outcome (some q)
  fails : ∀ e q, r = .failure e q → failed e = true ∧ outcome none

section

variable {rules : String → ParsingExpression} {src : Source} {path : Path} {p q : Nat}

/-- Everywhere in the input, nodes are recognized just as the expression parses. -/
def NodeRecognizer.Follows (rules : String → ParsingExpression) (src : Source)
    (r : NodeRecognizer) (e : ParsingExpression) : Prop :=
  ∀ path p, p ≤ src.size → (r path p).Follows Diagnosis.isFailed (Parses rules src e p)

/-- Everywhere in the input, forests are recognized just as the expression
parses. -/
def ForestRecognizer.Follows (rules : String → ParsingExpression) (src : Source)
    (r : ForestRecognizer) (e : ParsingExpression) : Prop :=
  ∀ path p, p ≤ src.size →
    (r path p).Follows (fun d => d.cause.isFailed) (Parses rules src e p)

namespace Reply.Follows

variable {ε ε' α : Type} {failed : ε → Bool} {failed' : ε' → Bool}
variable {outcome outcome' : Option Nat → Prop} {r : Reply ε α}

theorem success {v : α} (h : outcome (some q)) :
    (Reply.success v q : Reply ε α).Follows failed outcome where
  ends := by
    rintro _ _ ⟨⟩
    exact h
  fails := by simp

theorem failure {e : ε} (he : failed e = true) (h : outcome none) :
    (Reply.failure e q : Reply ε α).Follows failed outcome where
  ends := by simp
  fails := by
    rintro _ _ ⟨⟩
    exact ⟨he, h⟩

theorem fault (f : Fault) : (Reply.fault f : Reply ε α).Follows failed outcome where
  ends := by simp
  fails := by simp

theorem unfinished : (Reply.unfinished : Reply ε α).Follows failed outcome where
  ends := by simp
  fails := by simp

theorem imp (h : r.Follows failed outcome) (himp : ∀ o, outcome o → outcome' o) :
    r.Follows failed outcome' where
  ends := fun v q hr => himp _ (h.ends v q hr)
  fails := fun e q hr => (h.fails e q hr).imp id (himp _)

theorem restoring (h : r.Follows failed outcome) (hp : p ≤ src.size) :
    (Reply.restoring src p r).Follows failed outcome := by
  cases r with
  | failure e q =>
      obtain ⟨he, hnone⟩ := h.fails e q rfl
      rw [Reply.restoring, Source.seek_of_le hp]
      exact failure he hnone
  | _ => exact h

theorem mapFailure {view : ε → ε'} (h : r.Follows failed outcome)
    (hview : ∀ e, failed e = true → failed' (view e) = true) :
    (r.mapFailure view).Follows failed' outcome := by
  cases r with
  | success v q => exact success (h.ends v q rfl)
  | failure e q =>
      obtain ⟨he, hnone⟩ := h.fails e q rfl
      exact failure (hview e he) hnone
  | fault f => exact fault f
  | unfinished => exact unfinished

theorem toForest {r : Reply Diagnosis Node} (h : r.Follows Diagnosis.isFailed outcome) :
    r.toForest.Follows (fun d => d.cause.isFailed) outcome := by
  cases r with
  | success n q => exact success (h.ends n q rfl)
  | failure d q =>
      obtain ⟨hd, hnone⟩ := h.fails d q rfl
      exact failure hd hnone
  | fault f => exact fault f
  | unfinished => exact unfinished

/-- Where recognition has an answer and there is one outcome at most, the two
agree. -/
theorem outcome_iff (h : r.Follows failed outcome) (hanswer : r.Backtracks src p)
    (hunique : ∀ o o', outcome o → outcome o' → o = o') :
    (∀ q, (∃ v, r = .success v q) ↔ outcome (some q)) ∧
      ((∃ e, failed e = true ∧ r = .failure e p) ↔ outcome none) := by
  cases hanswer with
  | @success v m _ _ =>
      have houtcome := h.ends v m rfl
      constructor
      · intro q
        constructor
        · rintro ⟨_, ⟨⟩⟩
          exact houtcome
        · intro hq
          obtain rfl := Option.some.inj (hunique _ _ houtcome hq)
          exact ⟨v, rfl⟩
      · constructor
        · rintro ⟨_, -, ⟨⟩⟩
        · intro hnone
          cases hunique _ _ houtcome hnone
  | failure e =>
      obtain ⟨hfailed, houtcome⟩ := h.fails e p rfl
      constructor
      · intro q
        constructor
        · rintro ⟨_, ⟨⟩⟩
        · intro hq
          cases hunique _ _ houtcome hq
      · constructor
        · intro _
          exact houtcome
        · intro _
          exact ⟨e, hfailed, rfl⟩

end Reply.Follows

/-! ## Terminals -/

theorem Literal.parses_readFrom (l : Literal) : ∀ (es : List Char) (p : Nat),
    Parses rules src (.all (es.map fun expected => .token (l.admits expected))) p
      (l.readFrom src es p)
  | [], p => .empty p
  | e :: rest, p => by
      have ih := l.parses_readFrom rest (p + 1)
      rw [readFrom]
      cases htoken : src.token? p with
      | none => exact .seq_fails (.token_refused (by simp [htoken]))
      | some c =>
          by_cases hc : l.admits e c
          · simp only [hc, if_true]
            exact .seq (.token htoken hc) ih
          · simp only [hc, Bool.false_eq_true, if_false]
            exact .seq_fails (parses_token_of_refused htoken hc)

theorem Literal.follows (l : Literal) :
    NodeRecognizer.Follows rules src (l.recognize src) (Terminal.literal l).expression := by
  intro path p hp
  have hparses : Parses rules src (Terminal.literal l).expression p (l.readFrom src l.tokens p) :=
    l.parses_readFrom l.tokens p
  rcases l.recognize_cases path hp with ⟨q, hread, hr⟩ | ⟨hread, hr⟩ <;> rw [hr] <;>
    rw [hread] at hparses
  · exact .success hparses
  · exact .failure rfl hparses

theorem CharClass.follows (k : CharClass) :
    NodeRecognizer.Follows rules src (k.recognize src) (Terminal.charClass k).expression := by
  intro path p hp
  unfold CharClass.recognize
  cases htoken : src.token? p with
  | none => exact .failure rfl (.token_refused (by simp [htoken]))
  | some c =>
      by_cases hc : k.admits c
      · simp only [hc, if_true, Segment.ofBounds_of_le (Nat.le_succ p), Reply.check_ok]
        exact .success (.token htoken hc)
      · simp only [hc, Bool.false_eq_true, if_false]
        exact .failure rfl (parses_token_of_refused htoken hc)

theorem Terminal.recognizeEnd_follows :
    NodeRecognizer.Follows rules src (recognizeEnd src) Terminal.endOfInput.expression := by
  intro path p _
  unfold recognizeEnd
  by_cases hend : src.size ≤ p
  · rw [if_pos hend]
    exact .success (parses_not_any_iff.mpr (by rw [if_pos hend]))
  · rw [if_neg hend]
    exact .failure rfl (parses_not_any_iff.mpr (by rw [if_neg hend]))

/-! ## Groups -/

variable {α : Type} {read : α → ForestRecognizer} {expression : α → ParsingExpression}

/-- What succeeds in turn parses, and then what comes behind decides. -/
theorem InTurn.parses {post : List α} : ∀ {pre : List α} {p m : Nat} {ns : List Node}
    {o : Option Nat}, (∀ a ∈ pre, ForestRecognizer.Orderly src (read a)) →
    (∀ a ∈ pre, ForestRecognizer.Follows rules src (read a) (expression a)) → p ≤ src.size →
    InTurn path (pre.map read) p ns m → Parses rules src (.all (post.map expression)) m o →
    Parses rules src (.all ((pre ++ post).map expression)) p o
  | [], _, _, _, _, _, _, _, h, hpost => by
      cases h
      exact hpost
  | a :: pre, p, _, _, _, horderly, hfollows, hp, h, hpost => by
      obtain ⟨ha, hrest⟩ := List.forall_mem_cons.mp horderly
      obtain ⟨hfollowsA, hfollowsRest⟩ := List.forall_mem_cons.mp hfollows
      rw [List.map_cons] at h
      cases h with
      | @cons _ _ _ m _ f ns first others =>
          obtain ⟨-, hm, -⟩ := (ha path p hp).advances f m first
          have hfirst := (hfollowsA path p hp).ends f m first
          have hothers := InTurn.parses hrest hfollowsRest hm others hpost
          exact .seq hfirst hothers

theorem sequence_follows {as : List α}
    (horderly : ∀ a ∈ as, ForestRecognizer.Orderly src (read a))
    (hfollows : ∀ a ∈ as, ForestRecognizer.Follows rules src (read a) (expression a)) :
    ForestRecognizer.Follows rules src (sequence src (as.map read))
      (.all (as.map expression)) := by
  intro path p hp
  unfold sequence
  rcases sequenceFrom_cases path 0 (as.map read) p with
    ⟨ns, q, hrun, hr⟩ | ⟨pre, r, post, ns, m, hsplit, hrun, hm, hr⟩ <;> rw [hr]
  · have hparses : Parses rules src (.all ((as ++ []).map expression)) p (some q) :=
      hrun.parses horderly hfollows hp (.empty q)
    rw [List.append_nil] at hparses
    exact .success hparses
  · obtain ⟨before, a, behind, rfl, rfl, rfl⟩ := map_eq_append_cons hsplit
    have hbefore : ∀ b ∈ before, ForestRecognizer.Orderly src (read b) :=
      fun b hb => horderly b (List.mem_append_left _ hb)
    obtain ⟨-, hms, -⟩ := hrun.bounds (List.forall_mem_map.mpr hbefore) hp
    -- the reply of `a` counts only where it fails
    have hnext : (read a path m).Follows (fun d => d.cause.isFailed)
        (Parses rules src (.all ((before ++ a :: behind).map expression)) p) := by
      constructor
      · intro f q h
        exact absurd h (hm f q)
      · intro d q h
        obtain ⟨hfailed, hnone⟩ := (hfollows a (by simp) path m hms).fails d q h
        refine ⟨hfailed, hrun.parses hbefore ?_ hp (.seq_fails hnone)⟩
        intro b hb
        exact hfollows b (List.mem_append_left _ hb)
    refine Reply.Follows.restoring (hnext.mapFailure ?_) hp
    intro d hd
    exact hd

/-- Where all alternatives so far fail, those behind them decide. -/
theorem AllFail.parses {post : List α} : ∀ {pre : List α} {p m : Nat} {o : Option Nat},
    (∀ a ∈ pre, ForestRecognizer.Orderly src (read a)) →
    (∀ a ∈ pre, ForestRecognizer.Follows rules src (read a) (expression a)) → p ≤ src.size →
    AllFail path (pre.map read) p m → Parses rules src (.first (post.map expression)) m o →
    Parses rules src (.first ((pre ++ post).map expression)) p o
  | [], _, _, _, _, _, _, h, hpost => by
      cases h
      exact hpost
  | a :: pre, p, _, _, horderly, hfollows, hp, h, hpost => by
      obtain ⟨ha, hrest⟩ := List.forall_mem_cons.mp horderly
      obtain ⟨hfollowsA, hfollowsRest⟩ := List.forall_mem_cons.mp hfollows
      rw [List.map_cons] at h
      cases h with
      | @cons _ _ _ m _ d first _ others =>
          -- the alternative gave back what it read, so the next starts at `p` too
          obtain rfl := (ha path p hp).returns d m first
          obtain ⟨-, hfirst⟩ := (hfollowsA path m hp).fails d m first
          have hothers := AllFail.parses hrest hfollowsRest hp others hpost
          exact .choice_second hfirst hothers

theorem choice_follows {as : List α}
    (horderly : ∀ a ∈ as, ForestRecognizer.Orderly src (read a))
    (hfollows : ∀ a ∈ as, ForestRecognizer.Follows rules src (read a) (expression a)) :
    ForestRecognizer.Follows rules src (choice (as.map read)) (.first (as.map expression)) := by
  intro path p hp
  unfold choice
  rcases choiceAfter_cases path none (as.map read) p (by simp) with
    ⟨pre, r, post, m, hsplit, hpre, hdecides, hr⟩ | ⟨d, q, hall, hd, -, hr⟩ <;> rw [hr]
  · obtain ⟨before, a, behind, rfl, rfl, rfl⟩ := map_eq_append_cons hsplit
    have hbefore : ∀ b ∈ before, ForestRecognizer.Orderly src (read b) :=
      fun b hb => horderly b (List.mem_append_left _ hb)
    obtain rfl : m = p := hpre.stays (List.forall_mem_map.mpr hbefore) hp
    have hnext := hfollows a (by simp) path m hp
    constructor
    · intro f q hrun
      have hsome := hnext.ends f q hrun
      exact hpre.parses hbefore (fun b hb => hfollows b (List.mem_append_left _ hb)) hp
        (.choice hsome)
    · -- an alternative that fails decides nothing
      intro d q hrun
      have hfailed := (hnext.fails d q hrun).1
      rw [← Diagnosis.isIncomplete_eq_false_iff, hdecides d q hrun] at hfailed
      cases hfailed
  · have hparses : Parses rules src (.first ((as ++ []).map expression)) p none :=
      hall.parses horderly hfollows hp (parses_fail _)
    rw [List.append_nil] at hparses
    exact .failure (Diagnosis.isIncomplete_eq_false_iff.mp hd) hparses

/-! ## Repetition -/

namespace Cardinality

variable {c : Cardinality} {body : ParsingExpression} {r : ForestRecognizer}

/-- What is left of the expression once so many occurrences are recognized. -/
def remaining (c : Cardinality) (body : ParsingExpression) (done : Nat) : ParsingExpression :=
  .copies body (c.min - done) <|
    match c.max with
    | none => .star body
    | some m => .optionals body (m - c.min - (done - c.min))

theorem remaining_zero (c : Cardinality) (body : ParsingExpression) :
    c.remaining body 0 = c.expression body := by
  unfold remaining expression
  rw [Nat.zero_sub, Nat.sub_zero]
  rfl

theorem remaining_of_lt {done : Nat} (h : done < c.min) :
    c.remaining body done = .seq body (c.remaining body (done + 1)) := by
  unfold remaining
  obtain ⟨k, hk⟩ : ∃ k, c.min - done = k + 1 := Nat.exists_eq_add_one_of_ne_zero (by omega)
  rw [hk, show c.min - (done + 1) = k by omega, Nat.sub_eq_zero_of_le (Nat.le_of_lt h),
    Nat.sub_eq_zero_of_le h]
  rfl

theorem remaining_of_full {done : Nat} (h : c.isFull done = true) :
    c.remaining body done = .empty := by
  obtain ⟨m, hm, hle⟩ := isFull_iff.mp h
  have hmin := (c.bounds_le m hm).2
  unfold remaining
  rw [Option.mem_def] at hm
  rw [hm, show c.min - done = 0 by omega]
  simp only [show m - c.min - (done - c.min) = 0 by omega]
  rfl

theorem remaining_of_unbounded {done : Nat} (h : c.min ≤ done) (hmax : c.max = none) :
    c.remaining body done = .star body := by
  unfold remaining
  rw [hmax, Nat.sub_eq_zero_of_le h]
  rfl

theorem remaining_of_room {done m : Nat} (h : c.min ≤ done) (hmax : c.max = some m)
    (hroom : done < m) :
    c.remaining body done = .optional (.seq body (c.remaining body (done + 1))) := by
  obtain ⟨k, rfl⟩ : ∃ k, m = done + k + 1 := ⟨m - done - 1, by omega⟩
  unfold remaining
  rw [hmax, Nat.sub_eq_zero_of_le h, Nat.sub_eq_zero_of_le (Nat.le_succ_of_le h)]
  simp only [show done + k + 1 - c.min - (done - c.min) = k + 1 by omega,
    show done + k + 1 - c.min - (done + 1 - c.min) = k by omega]
  rfl

/-- An occurrence and then what is left. -/
theorem parses_remaining {done p m q : Nat} (room : c.isFull done = false)
    (step : Parses rules src body p (some m))
    (others : Parses rules src (c.remaining body (done + 1)) m (some q)) :
    Parses rules src (c.remaining body done) p (some q) := by
  by_cases hmin : done < c.min
  · rw [remaining_of_lt hmin]
    exact .seq step others
  · have hmin := Nat.le_of_not_lt hmin
    cases hmax : c.max with
    | none =>
        rw [remaining_of_unbounded (Nat.le_succ_of_le hmin) hmax] at others
        rw [remaining_of_unbounded hmin hmax]
        exact .star step others
    | some n =>
        rw [remaining_of_room hmin hmax (succ_le_max room hmax)]
        exact .choice (.seq step others)

/-- No occurrence, though there might be one. -/
theorem parses_remaining_stopped {done p : Nat} (room : c.isFull done = false)
    (hmin : c.min ≤ done) (step : Parses rules src body p none) :
    Parses rules src (c.remaining body done) p (some p) := by
  cases hmax : c.max with
  | none =>
      rw [remaining_of_unbounded hmin hmax]
      exact .star_ends step
  | some n =>
      rw [remaining_of_room hmin hmax (succ_le_max room hmax)]
      exact .optional_empty (.seq_fails step)

/-- A run that is enough ends where what is left ends; for one that is not, what is
left fails. -/
theorem Repeats.parses {done p q : Nat} {run : Run}
    (h : c.Repeats (fun _ => r path) done p run q)
    (horderly : ForestRecognizer.Orderly src r)
    (hfollows : ForestRecognizer.Follows rules src r body)
    (hconsumes : c.max ≠ some 1 → Recognizer.Consumes src r) (hp : p ≤ src.size) :
    (run.ending = .idle ∨ c.min ≤ run.occurrences →
        Parses rules src (c.remaining body done) p (some q)) ∧
      (run.ending ≠ .idle → run.occurrences < c.min →
        Parses rules src (c.remaining body done) p none) := by
  induction h with
  | full hfull =>
      rw [remaining_of_full hfull]
      constructor
      · intro _
        exact .empty _
      · intro _ hmin
        obtain ⟨m, hm, hle⟩ := isFull_iff.mp hfull
        have hreached := Nat.le_trans (c.bounds_le m hm).2 hle
        exact absurd hreached (Nat.not_le_of_lt hmin)
  | @idle done p f room step =>
      have hstep := (hfollows path p hp).ends f p step
      refine ⟨?_, fun hend _ => absurd rfl hend⟩
      intro _
      -- only what occurs once at most may read nothing, and then nothing is left
      by_cases hmax : c.max = some 1
      · refine parses_remaining room hstep ?_
        rw [remaining_of_full (isFull_iff.mpr ⟨1, hmax, by omega⟩)]
        exact .empty p
      · exact absurd step (hconsumes hmax path p f hp)
  | @more done p m q f run room step _ others ih =>
      obtain ⟨-, hm, -⟩ := (horderly path p hp).advances f m step
      have hstep := (hfollows path p hp).ends f m step
      obtain ⟨hends, hfails⟩ := ih hm
      constructor
      · intro henough
        exact parses_remaining room hstep (hends henough)
      · -- too few in the end are too few now
        intro hend hmin
        have hlt : done < c.min := Nat.lt_of_succ_lt (Nat.lt_of_le_of_lt others.done_le hmin)
        rw [remaining_of_lt hlt]
        exact .seq hstep (hfails hend hmin)
  | @stopped done p m d room step =>
      obtain rfl := (horderly path p hp).returns d m step
      have hstep := ((hfollows path m hp).fails d m step).2
      constructor
      · intro henough
        rcases henough with hend | hmin
        · cases hend
        · exact parses_remaining_stopped room hmin hstep
      · intro _ hmin
        rw [remaining_of_lt hmin]
        exact .seq_fails hstep

/-- The occurrence that stops a run commits no token. -/
theorem Repeats.stopped_isFailed {done p q : Nat} {run : Run} {d : GroupDiagnosis}
    (h : c.Repeats (fun _ => r path) done p run q)
    (horderly : ForestRecognizer.Orderly src r)
    (hfollows : ForestRecognizer.Follows rules src r body) (hp : p ≤ src.size) :
    run.ending = .stopped d → d.cause.isFailed = true := by
  induction h with
  | full _ => simp
  | idle _ _ => simp
  | @more done p m q f run _ step _ _ ih =>
      obtain ⟨-, hm, -⟩ := (horderly path p hp).advances f m step
      exact ih hm
  | @stopped done p m e _ step =>
      rintro ⟨⟩
      exact ((hfollows path p hp).fails d m step).1

end Cardinality

theorem Cardinality.repeating_follows {c : Cardinality} {body : ParsingExpression} {bound : Nat}
    {r : ForestRecognizer} (horderly : ForestRecognizer.Orderly src r)
    (hfollows : ForestRecognizer.Follows rules src r body)
    (hconsumes : c.max ≠ some 1 → Recognizer.Consumes src r) :
    ForestRecognizer.Follows rules src (c.repeating src bound fun _ => r) (c.expression body) := by
  intro path p hp
  rw [← c.remaining_zero]
  rcases c.repeating_cases src bound (fun _ => r) path p with
    ⟨run, q, hrun, hsuffices, hr⟩ | ⟨run, q, d, hrun, hend, hd, hr⟩ | ⟨f, -, hr⟩ | ⟨-, hr⟩ <;> rw [hr]
  · exact .success ((hrun.parses horderly hfollows hconsumes hp).1 hsuffices.1)
  · have hfailed := hrun.stopped_isFailed horderly hfollows hp hend
    have hmin := hd.resolve_left (by simp [Diagnosis.isIncomplete_eq_false_iff.mpr hfailed])
    have hnone := (hrun.parses horderly hfollows hconsumes hp).2 (by simp [hend]) hmin
    exact Reply.Follows.restoring (.failure hfailed hnone) hp
  · exact .fault f
  · exact .unfinished

end

end ConcreteSyntax
