import ConcreteSyntax.Proofs.Outcomes
import Mathlib.Data.List.Range

/-!
# The course of a repetition

A repetition is told by its occurrences alone: where each of them ends, what it yields,
and why there is no further one. From this course the answer, the cursor behind it and
the number of calls are read off, with no bound and no loop in sight. Occurrences that
read something move the cursor towards the end of the input, so there is always a course.
-/

namespace ConcreteSyntax

namespace Cardinality

/-! ## Courses -/

/-- From `entry` on, `n` occurrences are recognized one after the other, the one numbered
`i` from `position i` to `position (i + 1)`. Each reads something. -/
structure Passes (occurrence : Nat → Nat → Reply GroupDiagnosis Forest) (entry n : Nat)
    (position : Nat → Nat) (forest : Nat → Forest) : Prop where
  start : position 0 = entry
  step : ∀ i < n, occurrence i (position i) = .success (forest i) (position (i + 1))
  moved : ∀ i < n, position (i + 1) ≠ position i

/-- From `entry` on `n` occurrences are recognized, and this is why there are no more: they
are as many as may be, the last of them read nothing, or the next one fails. -/
inductive Course (c : Cardinality) (occurrence : Nat → Nat → Reply GroupDiagnosis Forest)
    (entry : Nat) : (n : Nat) → (position : Nat → Nat) → (forest : Nat → Forest) → RunEnd →
    Prop where
  | full {n : Nat} {position : Nat → Nat} {forest : Nat → Forest}
      (passes : Passes occurrence entry n position forest) (max : n ∈ c.max) :
      Course c occurrence entry n position forest .full
  | idle {n : Nat} {position : Nat → Nat} {forest : Nat → Forest}
      (passes : Passes occurrence entry n position forest) (room : ∀ m ∈ c.max, n < m)
      (last : occurrence n (position n) = .success (forest n) (position (n + 1)))
      (unmoved : position (n + 1) = position n) :
      Course c occurrence entry (n + 1) position forest .idle
  | stopped {n : Nat} {position : Nat → Nat} {forest : Nat → Forest} {d : GroupDiagnosis}
      (passes : Passes occurrence entry n position forest) (room : ∀ m ∈ c.max, n < m)
      (failure : occurrence n (position n) = .failure d (position n)) :
      Course c occurrence entry n position forest (.stopped d)

/-- The run in which `n` forests are yielded. -/
def runOf (n : Nat) (forest : Nat → Forest) (ending : RunEnd) : Run :=
  ⟨(List.range n).flatMap fun i => (forest i).nodes, n, ending⟩

section

variable {c : Cardinality} {occurrence occurrence' : Nat → Nat → Reply GroupDiagnosis Forest}
variable {entry n : Nat} {position : Nat → Nat} {forest : Nat → Forest} {ending : RunEnd}
variable {src : Source}

theorem isFull_eq_false_iff : c.isFull n = false ↔ ∀ m ∈ c.max, n < m := by
  rw [← Bool.not_eq_true, isFull_iff]
  simp

/-! ## From courses to runs -/

/-- Occurrences that read something are put before what comes behind them. -/
theorem Passes.repeats (h : Passes occurrence entry n position forest)
    (room : ∀ m ∈ c.max, n ≤ m) {run : Run} {q : Nat}
    (behind : c.Repeats occurrence n (position n) run q) : ∀ k i, i + k = n →
      c.Repeats occurrence i (position i)
        { run with nodes := ((List.range' i k).flatMap fun j => (forest j).nodes) ++ run.nodes } q
  | 0, i, hi => by
      obtain rfl : i = n := hi
      exact behind
  | k + 1, i, hi => by
      have hlt : i < n := by omega
      have hroom : c.isFull i = false :=
        isFull_eq_false_iff.mpr fun m hm => Nat.lt_of_lt_of_le hlt (room m hm)
      have hrest := h.repeats room behind k (i + 1) (by omega)
      have hall := Repeats.more hroom (h.step i hlt) (h.moved i hlt) hrest
      rw [List.range'_succ, List.flatMap_cons, List.append_assoc]
      exact hall

theorem Passes.repeats_from_entry (h : Passes occurrence entry n position forest)
    (room : ∀ m ∈ c.max, n ≤ m) {run : Run} {q : Nat}
    (behind : c.Repeats occurrence n (position n) run q) :
    c.Repeats occurrence 0 entry
      { run with nodes := ((List.range n).flatMap fun i => (forest i).nodes) ++ run.nodes } q := by
  have hall := h.repeats room behind n 0 (Nat.zero_add n)
  rwa [h.start, ← List.range_eq_range'] at hall

/-- **Runs.** A course is a run from its entry to its last position. -/
theorem Course.repeats (h : c.Course occurrence entry n position forest ending) :
    c.Repeats occurrence 0 entry (runOf n forest ending) (position n) := by
  cases h with
  | full passes max =>
      have hend : c.Repeats occurrence n (position n) ⟨[], n, .full⟩ (position n) :=
        .full (isFull_iff.mpr ⟨n, max, Nat.le_refl n⟩)
      have hrun := passes.repeats_from_entry
        (fun m hm => Nat.le_of_eq (Option.mem_unique max hm)) hend
      rwa [List.append_nil] at hrun
  | @idle n position forest passes room last unmoved =>
      have hend : c.Repeats occurrence n (position n) ⟨(forest n).nodes, n + 1, .idle⟩
          (position n) := .idle (isFull_eq_false_iff.mpr room) (by rw [last, unmoved])
      have hrun := passes.repeats_from_entry (fun m hm => Nat.le_of_lt (room m hm)) hend
      rw [runOf, List.range_succ, List.flatMap_append, List.flatMap_singleton, unmoved]
      exact hrun
  | @stopped n position forest d passes room failure =>
      have hend : c.Repeats occurrence n (position n) ⟨[], n, .stopped d⟩ (position n) :=
        .stopped (isFull_eq_false_iff.mpr room) failure
      have hrun := passes.repeats_from_entry (fun m hm => Nat.le_of_lt (room m hm)) hend
      rwa [List.append_nil] at hrun

/-- A run is made if its calls are allowed. -/
theorem Repeats.runFrom_eq {done p q : Nat} {run : Run} (h : c.Repeats occurrence done p run q) :
    ∀ {bound : Nat}, run.calls ≤ done + bound →
      c.runFrom occurrence bound done p = .success run q := by
  induction h with
  | full hfull =>
      intro bound _
      cases bound <;> simp [runFrom, hfull]
  | @idle done p f room step =>
      intro bound hbound
      obtain ⟨bound, rfl⟩ : ∃ b, bound = b + 1 :=
        Nat.exists_eq_add_one_of_ne_zero (by rintro rfl; exact Nat.not_succ_le_self _ hbound)
      simp [runFrom, room, step]
  | @more done p q r f run room step moved others ih =>
      intro bound hbound
      have hdone := others.done_le
      have hcalls : run.occurrences ≤ run.calls := by
        unfold Run.calls
        split <;> omega
      have hbound : run.calls ≤ done + bound := hbound
      obtain ⟨bound, rfl⟩ : ∃ b, bound = b + 1 :=
        Nat.exists_eq_add_one_of_ne_zero (by omega)
      have hrest := @ih bound (by omega)
      simp [runFrom, room, step, moved, hrest, Reply.map]
  | @stopped done p q d room step =>
      intro bound hbound
      obtain ⟨bound, rfl⟩ : ∃ b, bound = b + 1 :=
        Nat.exists_eq_add_one_of_ne_zero (by rintro rfl; exact Nat.not_succ_le_self _ hbound)
      simp [runFrom, room, step]

/-! ## Calls -/

theorem Passes.le_position (h : Passes occurrence entry n position forest)
    (hentry : entry ≤ src.size)
    (hocc : ∀ i p, p ≤ src.size → (occurrence i p).Backtracks src p) :
    ∀ i ≤ n, entry + i ≤ position i ∧ position i ≤ src.size
  | 0, _ => by
      rw [h.start]
      exact ⟨Nat.le_refl _, hentry⟩
  | i + 1, hi => by
      obtain ⟨hle, hsize⟩ := h.le_position hentry hocc i (Nat.le_of_succ_le hi)
      have hback := hocc i _ hsize
      have hmoved := h.moved i hi
      rw [h.step i hi] at hback
      cases hback with
      | success _ forward inside => omega

/-- No more calls are made than tokens remain and one more, nor more than there may be
occurrences. -/
theorem Course.calls_le (h : c.Course occurrence entry n position forest ending)
    (hentry : entry ≤ src.size)
    (hocc : ∀ i p, p ≤ src.size → (occurrence i p).Backtracks src p) :
    (runOf n forest ending).calls ≤ src.size - entry + 1 ∧
      ∀ m ∈ c.max, (runOf n forest ending).calls ≤ m := by
  cases h with
  | full passes max =>
      have hlast := passes.le_position hentry hocc n (Nat.le_refl n)
      refine ⟨?_, fun m hm => Nat.le_of_eq (Option.mem_unique max hm)⟩
      show n ≤ _
      omega
  | @idle n _ _ passes room _ _ =>
      have hlast := passes.le_position hentry hocc n (Nat.le_refl n)
      refine ⟨?_, room⟩
      show n + 1 ≤ _
      omega
  | stopped passes room _ =>
      have hlast := passes.le_position hentry hocc n (Nat.le_refl n)
      refine ⟨?_, room⟩
      show n + 1 ≤ _
      omega

theorem Passes.congr (h : Passes occurrence entry n position forest)
    (hsame : ∀ i < n, occurrence' i (position i) = occurrence i (position i)) :
    Passes occurrence' entry n position forest where
  start := h.start
  step i hi := by rw [hsame i hi, h.step i hi]
  moved := h.moved

/-- Only what is answered to the calls of a course matters to it. -/
theorem Course.congr (h : c.Course occurrence entry n position forest ending)
    (hsame : ∀ i < (runOf n forest ending).calls,
      occurrence' i (position i) = occurrence i (position i)) :
    c.Course occurrence' entry n position forest ending := by
  cases h with
  | full passes max => exact .full (passes.congr hsame) max
  | @idle n _ _ passes room last unmoved =>
      refine .idle (passes.congr fun i hi => hsame i (Nat.lt_succ_of_lt hi)) room ?_ unmoved
      rw [hsame n (Nat.lt_succ_self n), last]
  | stopped passes room failure =>
      refine .stopped (passes.congr fun i hi => hsame i (Nat.lt_succ_of_lt hi)) room ?_
      rw [hsame n (Nat.lt_succ_self n), failure]

/-! ## There is a course -/

/-- Where the occurrence numbered `i` is called, if those before it are recognized. -/
def reached (occurrence : Nat → Nat → Reply GroupDiagnosis Forest) (entry : Nat) : Nat → Nat
  | 0 => entry
  | i + 1 =>
    match occurrence i (reached occurrence entry i) with
    | .success _ q => q
    | _ => reached occurrence entry i

/-- What the occurrence called there yields, if it is recognized. -/
def yielded (occurrence : Nat → Nat → Reply GroupDiagnosis Forest) (entry i : Nat) : Forest :=
  match occurrence i (reached occurrence entry i) with
  | .success f _ => f
  | _ => .empty

theorem reached_step {i q : Nat} {f : Forest}
    (h : occurrence i (reached occurrence entry i) = .success f q) :
    occurrence i (reached occurrence entry i) =
      .success (yielded occurrence entry i) (reached occurrence entry (i + 1)) := by
  simp only [yielded, reached, h]

theorem Passes.snoc (h : Passes occurrence entry n position forest)
    (hstep : occurrence n (position n) = .success (forest n) (position (n + 1)))
    (hmoved : position (n + 1) ≠ position n) :
    Passes occurrence entry (n + 1) position forest where
  start := h.start
  step := Nat.forall_lt_succ_right.mpr ⟨h.step, hstep⟩
  moved := Nat.forall_lt_succ_right.mpr ⟨h.moved, hmoved⟩

/-- The course has ended, or so many occurrences are recognized and each reads something. -/
theorem exists_course_or_passes (c : Cardinality) (hentry : entry ≤ src.size)
    (hocc : ∀ i p, p ≤ src.size → (occurrence i p).Backtracks src p) : ∀ k,
      (∃ n position forest ending, c.Course occurrence entry n position forest ending) ∨
        Passes occurrence entry k (reached occurrence entry) (yielded occurrence entry) ∧
          ∀ m ∈ c.max, k ≤ m
  | 0 => Or.inr ⟨⟨rfl, by simp, by simp⟩, fun m _ => Nat.zero_le m⟩
  | k + 1 => by
      rcases c.exists_course_or_passes hentry hocc k with hcourse | ⟨passes, hroom⟩
      · exact Or.inl hcourse
      by_cases hmax : k ∈ c.max
      · exact Or.inl ⟨_, _, _, _, .full passes hmax⟩
      have room : ∀ m ∈ c.max, k < m := fun m hm =>
        Nat.lt_of_le_of_ne (hroom m hm) fun hk => hmax (hk ▸ hm)
      have hback := hocc k _ (passes.le_position hentry hocc k (Nat.le_refl k)).2
      cases hrun : occurrence k (reached occurrence entry k) with
      | success f q =>
          have hstep := reached_step hrun
          by_cases hmoved : reached occurrence entry (k + 1) = reached occurrence entry k
          · exact Or.inl ⟨_, _, _, _, .idle passes room hstep hmoved⟩
          · exact Or.inr ⟨passes.snoc hstep hmoved, room⟩
      | failure d q =>
          rw [hrun] at hback
          cases hback with
          | failure => exact Or.inl ⟨_, _, _, _, .stopped passes room hrun⟩
      | fault f =>
          rw [hrun] at hback
          cases hback
      | unfinished =>
          rw [hrun] at hback
          cases hback

/-- **Courses.** Each occurrence that does not end the course reads a token, so one of them does. -/
theorem exists_course (c : Cardinality) (hentry : entry ≤ src.size)
    (hocc : ∀ i p, p ≤ src.size → (occurrence i p).Backtracks src p) :
    ∃ n position forest ending, c.Course occurrence entry n position forest ending := by
  rcases c.exists_course_or_passes hentry hocc (src.size - entry + 1) with hcourse | ⟨passes, -⟩
  · exact hcourse
  · have hbeyond := passes.le_position hentry hocc _ (Nat.le_refl _)
    omega

end

/-! ## Answers -/

/-- An incomplete occurrence, or one that fails too early, leaves a run that is not enough. -/
theorem not_suffices_of_stopped {c : Cardinality} {run : Run} {d : GroupDiagnosis}
    (hend : run.ending = .stopped d)
    (hd : d.cause.isIncomplete = true ∨ run.occurrences < c.min) : ¬ c.Suffices run := by
  rintro ⟨henough, hcomplete⟩
  rcases hd with hincomplete | hfew
  · rw [hcomplete d hend] at hincomplete
    cases hincomplete
  · rcases henough with hidle | hmin
    · rw [hend] at hidle
      cases hidle
    · exact Nat.not_lt_of_le hmin hfew

section

variable {c : Cardinality} {src : Source} {occurrence : Nat → ForestRecognizer} {path : Path}
variable {entry n bound : Nat} {position : Nat → Nat} {forest : Nat → Forest} {ending : RunEnd}

/-- A course that the bound has room for is the one that is judged. -/
theorem Course.repeating_eq
    (h : c.Course (fun i => occurrence i path) entry n position forest ending)
    (hbound : (runOf n forest ending).calls ≤ bound) :
    c.repeating src bound occurrence path entry =
      .restoring src entry (c.judge (runOf n forest ending) (position n)) := by
  rw [repeating, h.repeats.runFrom_eq (by rwa [Nat.zero_add])]

/-- **Answers.** The occurrences are enough, and are what is recognized, or the one that
stopped them is counted on and the cursor is back. -/
theorem Course.answers (h : c.Course (fun i => occurrence i path) entry n position forest ending)
    (hbound : (runOf n forest ending).calls ≤ bound) (hentry : entry ≤ src.size) :
    (c.Suffices (runOf n forest ending) ∧ c.repeating src bound occurrence path entry =
        .success (forestOf (runOf n forest ending)) (position n)) ∨
      ¬ c.Suffices (runOf n forest ending) ∧ ∃ d, ending = .stopped d ∧
        c.repeating src bound occurrence path entry =
          .failure (d.withCount (n + d.count)) entry := by
  rw [h.repeating_eq hbound]
  rcases judge_cases h.repeats with ⟨hsuffices, hjudge⟩ | ⟨d, hend, hd, hjudge⟩
  · exact Or.inl ⟨hsuffices, by rw [hjudge]; rfl⟩
  · refine Or.inr ⟨not_suffices_of_stopped hend hd, d, hend, ?_⟩
    rw [hjudge, Reply.restoring, Source.seek_of_le hentry]
    rfl

end

end Cardinality

/-- **Repetition.** Let every occurrence called within the input fail where it was entered
or succeed from there on. Then the repetition has a course, and any course it has decides
the answer. It is recognized, with the nodes of all occurrences in order and the cursor
behind the last, if these are enough or the last read nothing, unless an incomplete one
stopped it; else the cursor is back and what stopped it is counted on. It calls for an
occurrence once more at most than tokens remain, and never for more than there may be:
whatever else would be answered to further calls makes no difference. -/
theorem repetition_follows_occurrences (c : Cardinality) {src : Source}
    {occurrence : Nat → ForestRecognizer} {path : Path} {entry bound : Nat}
    (hentry : entry ≤ src.size)
    (hocc : ∀ i p, p ≤ src.size → (occurrence i path p).Backtracks src p)
    (hbound : src.size - entry < bound ∨ ∃ m ∈ c.max, m ≤ bound) :
    (∃ n position forest ending,
        c.Course (fun i => occurrence i path) entry n position forest ending) ∧
      ∀ n position forest ending,
        c.Course (fun i => occurrence i path) entry n position forest ending →
        let run := Cardinality.runOf n forest ending
        (c.Suffices run → c.repeating src bound occurrence path entry =
            .success ⟨(List.range n).flatMap fun i => (forest i).nodes, n == 0⟩ (position n)) ∧
          (¬ c.Suffices run → ∃ d, ending = .stopped d ∧
            c.repeating src bound occurrence path entry = .failure (d.withCount (n + d.count)) entry) ∧
          run.calls ≤ src.size - entry + 1 ∧ (∀ m ∈ c.max, run.calls ≤ m) ∧
          ∀ occurrence' : Nat → ForestRecognizer,
            (∀ i < run.calls, occurrence' i path (position i) = occurrence i path (position i)) →
            c.repeating src bound occurrence' path entry =
              c.repeating src bound occurrence path entry := by
  refine ⟨c.exists_course hentry hocc, fun n position forest ending hcourse => ?_⟩
  obtain ⟨hcalls, hmax⟩ := hcourse.calls_le hentry hocc
  have hroom : (Cardinality.runOf n forest ending).calls ≤ bound := by
    rcases hbound with hbound | ⟨m, hm, hbound⟩
    · omega
    · exact Nat.le_trans (hmax m hm) hbound
  have hanswer := hcourse.answers hroom hentry
  refine ⟨fun hsuffices => ?_, fun hinsufficient => ?_, hcalls, hmax, fun occurrence' hsame => ?_⟩
  · exact (hanswer.resolve_right fun h => h.1 hsuffices).2
  · exact (hanswer.resolve_left fun h => hinsufficient h.1).2
  · have hcourse' : c.Course (fun i => occurrence' i path) entry n position forest ending :=
      hcourse.congr hsame
    rw [hcourse.repeating_eq hroom, hcourse'.repeating_eq hroom]

/-- Reads the letter `a`; a letter `b` commits a token and is not enough. -/
def beginningOfPair (src : Source) : ForestRecognizer := fun path p =>
  match src.token? p with
  | some 'a' => .success (.single (.atom "a" ⟨p, 1⟩)) (p + 1)
  | some 'b' => .failure ⟨1, .partway path p 1⟩ p
  | _ => .failure ⟨0, .failed path p⟩ p

theorem beginningOfPair_backtracks (src : Source) (path : Path) (p : Nat) :
    (beginningOfPair src path p).Backtracks src p := by
  unfold beginningOfPair
  split
  · rename_i htoken
    exact .success _ (Nat.le_succ p) (Source.lt_size_of_token? htoken)
  · exact .failure _
  · exact .failure _

/-- Two letters are read and would be enough, but not before one that commits a token. -/
theorem repetition_follows_occurrences_letters :
    0 ≤ (Source.ofString "aab").size ∧
      (∀ p, p ≤ (Source.ofString "aab").size →
        (beginningOfPair (Source.ofString "aab") (.root "r") p).Backtracks
          (Source.ofString "aab") p) ∧
      (Source.ofString "aab").size - 0 < 4 ∧
      Cardinality.zeroOrMore.repeating (Source.ofString "aab") 4
          (fun _ => beginningOfPair (Source.ofString "aab")) (.root "r") 0 =
        .failure ⟨3, .partway (.root "r") 2 1⟩ 0 := by
  have hocc (p : Nat) := beginningOfPair_backtracks (Source.ofString "aab") (.root "r") p
  have hcourse : Cardinality.zeroOrMore.Course
      (fun _ => beginningOfPair (Source.ofString "aab") (.root "r")) 0 2 id
      (fun i => .single (.atom "a" ⟨i, 1⟩)) (.stopped ⟨1, .partway (.root "r") 2 1⟩) := by
    refine .stopped ⟨rfl, ?_, ?_⟩ (by simp [Cardinality.zeroOrMore, Cardinality.atLeast]) rfl
    · intro i hi
      match i, hi with
      | 0, _ => rfl
      | 1, _ => rfl
    · intro i _
      exact Nat.succ_ne_self i
  obtain ⟨-, hdecides⟩ := @repetition_follows_occurrences .zeroOrMore (Source.ofString "aab")
    (fun _ => beginningOfPair (Source.ofString "aab")) (.root "r") 0 4 (Nat.zero_le _)
    (fun _ p _ => hocc p) (.inl (by decide))
  obtain ⟨-, hstopped, -⟩ := hdecides _ _ _ _ hcourse
  obtain ⟨d, hd, hanswer⟩ := hstopped fun h => by cases h.2 _ rfl
  obtain rfl := RunEnd.stopped.inj hd
  exact ⟨Nat.zero_le _, fun p _ => hocc p, by decide, hanswer⟩

end ConcreteSyntax
