import ConcreteSyntax.Proofs.Exhaustion

/-!
# What diagnoses say

A diagnosis names a symbol under those that were being recognized and a position from
where recognition began on, and it stops within the input. One that committed tokens
has read some; if it was promoted, the failure it came of lies below it, just where it
stops. Every layer through which a diagnosis passes on its way to the top keeps this,
and a promotion depends on it: the tokens it commits are counted from the position
that another diagnosis gives.
-/

namespace ConcreteSyntax

/-! ## Paths -/

/-- The other path is this one, prolonged by some symbols or by none. -/
def Path.Encloses (path other : Path) : Prop := ∃ below, other = path.extend below

namespace Path.Encloses

theorem refl (path : Path) : path.Encloses path := ⟨[], rfl⟩

theorem child (path : Path) (symbol : String) : path.Encloses (path.child symbol) :=
  ⟨[symbol], rfl⟩

theorem trans {path path' path'' : Path} (h : path.Encloses path') (h' : path'.Encloses path'') :
    path.Encloses path'' := by
  obtain ⟨below, rfl⟩ := h
  obtain ⟨below', rfl⟩ := h'
  refine ⟨below ++ below', ?_⟩
  simp only [Path.extend, List.foldl_append]

end Path.Encloses

/-! ## Diagnoses -/

/-- What the diagnosis of a recognition under a path, entered at a position, has to be. -/
structure Diagnosis.WellFormed (src : Source) (path : Path) (entry : Nat) (d : Diagnosis) :
    Prop where
  encloses : path.Encloses d.path
  entry_le_position : entry ≤ d.position
  position_le_stop : d.position ≤ d.stop
  stop_le_size : d.stop ≤ src.size
  length_pos : d.isIncomplete = true → 1 ≤ d.length
  /-- What was promoted is a failure further down, where the promotion stops. It is the
  whole chain of causes, and no validator had its say. -/
  promotes : ∀ c ∈ d.cause?, d.reason? = none ∧ c.isFailed = true ∧ d.causes = [c] ∧
    c.position = d.stop ∧ d.path.Encloses c.path
  refuses : ∀ reason ∈ d.reason?, d.cause? = none

namespace Diagnosis.WellFormed

variable {src : Source} {path path' : Path} {p q : Nat} {d : Diagnosis}

theorem failed (path : Path) (hp : p ≤ src.size) :
    (Diagnosis.failed path p).WellFormed src path p where
  encloses := .refl path
  entry_le_position := Nat.le_refl p
  position_le_stop := Nat.le_refl p
  stop_le_size := hp
  length_pos := by simp [isIncomplete]
  promotes := by simp [cause?]
  refuses := by simp [reason?]

theorem incomplete {reason : Option String} {cause : Option Diagnosis} (path : Path) (hpq : p < q)
    (hq : q ≤ src.size)
    (hcause : ∀ c ∈ cause, reason = none ∧ c.isFailed = true ∧ c.position = q ∧
      path.Encloses c.path) :
    (Diagnosis.incomplete path p (q - p) reason cause).WellFormed src path p := by
  have hstop : (Diagnosis.incomplete path p (q - p) reason cause).stop = q := by
    simp only [stop, position, length]
    omega
  constructor
  case encloses => exact .refl path
  case entry_le_position => exact Nat.le_refl p
  case position_le_stop =>
    rw [hstop]
    exact Nat.le_of_lt hpq
  case stop_le_size =>
    rw [hstop]
    exact hq
  case length_pos =>
    intro _
    simp only [length]
    omega
  case promotes =>
    rintro c rfl
    obtain ⟨hreason, hfailed, hposition, hpath⟩ := hcause c rfl
    refine ⟨hreason, hfailed, ?_, hposition.trans hstop.symm, hpath⟩
    cases c with
    | failed path' p' => rfl
    | incomplete _ _ _ _ _ => cases hfailed
  case refuses =>
    rintro r rfl
    cases cause with
    | none => rfl
    | some c => cases (hcause c rfl).1

theorem partway (path : Path) (hpq : p < q) (hq : q ≤ src.size) :
    (Diagnosis.partway path p (q - p)).WellFormed src path p :=
  incomplete path hpq hq (by simp)

/-- A diagnosis from further down, or from further on, is one from here. -/
theorem mono (h : d.WellFormed src path' q) (hpath : path.Encloses path') (hpq : p ≤ q) :
    d.WellFormed src path p where
  encloses := hpath.trans h.encloses
  entry_le_position := Nat.le_trans hpq h.entry_le_position
  position_le_stop := h.position_le_stop
  stop_le_size := h.stop_le_size
  length_pos := h.length_pos
  promotes := h.promotes
  refuses := h.refuses

end Diagnosis.WellFormed

/-- Whenever nothing is recognized, the diagnosis is well-formed. -/
def NodeRecognizer.Diagnoses (src : Source) (r : NodeRecognizer) : Prop :=
  ∀ path p d q, p ≤ src.size → r path p = .failure d q → d.WellFormed src path p

/-- Whenever nothing is recognized, what stopped the group is a well-formed diagnosis. -/
def ForestRecognizer.Diagnoses (src : Source) (r : ForestRecognizer) : Prop :=
  ∀ path p d q, p ≤ src.size → r path p = .failure d q → d.cause.WellFormed src path p

namespace Reply

variable {ε ε' α : Type}

theorem restoring_eq_failure_iff {src : Source} {entry q : Nat} {r : Reply ε α} {e : ε}
    (hentry : entry ≤ src.size) :
    restoring src entry r = .failure e q ↔ (∃ m, r = .failure e m) ∧ q = entry := by
  cases r with
  | failure e' m =>
      simp [restoring, Source.seek_of_le hentry, eq_comm (a := q)]
  | _ => simp [restoring]

theorem mapFailure_eq_failure_iff {view : ε → ε'} {r : Reply ε α} {e : ε'} {q : Nat} :
    r.mapFailure view = .failure e q ↔ ∃ d, r = .failure d q ∧ view d = e := by
  cases r with
  | failure d m =>
      simp only [mapFailure, failure.injEq]
      constructor
      · rintro ⟨rfl, rfl⟩
        exact ⟨d, ⟨rfl, rfl⟩, rfl⟩
      · rintro ⟨_, ⟨rfl, rfl⟩, rfl⟩
        exact ⟨rfl, rfl⟩
  | _ => simp [mapFailure]

theorem toForest_eq_failure_iff {r : Reply Diagnosis Node} {d : GroupDiagnosis} {q : Nat} :
    r.toForest = .failure d q ↔ r = .failure d.cause q ∧ d.count = 0 := by
  obtain ⟨count, cause⟩ := d
  cases r with
  | failure e m =>
      simp only [toForest, map, mapFailure, GroupDiagnosis.ofDiagnosis, failure.injEq,
        GroupDiagnosis.mk.injEq]
      tauto
  | _ => simp [toForest, map, mapFailure]

end Reply

/-! ## Terminals -/

section

variable {src : Source} {path : Path} {p q : Nat} {e : Diagnosis}

/-- Behind the start delimiter, tokens are committed. -/
theorem Delimited.recognize_failure {d : Delimited} (hp : p ≤ src.size)
    (h : d.recognize src path p = .failure e q) :
    e.WellFormed src path p ∧ e.position = p := by
  rcases d.recognize_cases path hp with
    ⟨-, hr⟩ | ⟨stop, -, -, hread, ⟨-, hr⟩ | ⟨-, hr⟩⟩ <;> rw [hr] at h
  · rw [Reply.failure.injEq] at h
    exact h.1 ▸ ⟨.failed path hp, rfl⟩
  · cases h
  · have hpos := List.length_pos_iff.mpr d.start_ne_nil
    have hle := hread.start_le_stop
    rw [Reply.failure.injEq] at h
    exact h.1 ▸ ⟨.partway path (by omega) hread.stop_le_size, rfl⟩

/-- What a terminal says is about where it was entered. -/
theorem Terminal.recognize_failure {t : Terminal} (hp : p ≤ src.size)
    (h : t.recognize src path p = .failure e q) :
    e.WellFormed src path p ∧ e.position = p := by
  -- all but delimited content commits nothing before it succeeds
  have failed {m : Nat} (h : (Reply.failure (.failed path p) m : Reply Diagnosis Node) =
      .failure e q) : e.WellFormed src path p ∧ e.position = p := by
    rw [Reply.failure.injEq] at h
    exact h.1 ▸ ⟨.failed path hp, rfl⟩
  cases t with
  | literal l =>
      rcases l.recognize_cases path hp with ⟨m, -, hr⟩ | ⟨-, hr⟩
      · rw [recognize, hr] at h
        cases h
      · rw [recognize, hr] at h
        exact failed h
  | charClass k =>
      simp only [recognize, CharClass.recognize, Segment.ofBounds_of_le (Nat.le_succ p),
        Reply.check_ok] at h
      split at h
      · split at h
        · cases h
        · exact failed h
      · exact failed h
  | delimited c => exact c.recognize_failure hp h
  | endOfInput =>
      simp only [recognize, recognizeEnd] at h
      split at h
      · cases h
      · exact failed h
  | pattern r =>
      simp only [recognize, Pattern.recognize, Pattern.recognizeWith, distance_of_le hp,
        Reply.check_ok] at h
      split at h
      · cases h
      · exact failed h

theorem Terminal.recognize_diagnoses (t : Terminal) :
    NodeRecognizer.Diagnoses src (t.recognize src) :=
  fun _ _ _ _ hp h => (Terminal.recognize_failure hp h).1

end

/-! ## Groups -/

section

variable {src : Source} {path : Path} {p q : Nat} {d : GroupDiagnosis} {es : List ForestRecognizer}

theorem sequence_diagnoses (horderly : ∀ e ∈ es, ForestRecognizer.Orderly src e)
    (hes : ∀ e ∈ es, ForestRecognizer.Diagnoses src e) :
    ForestRecognizer.Diagnoses src (sequence src es) := by
  intro path p d q hp h
  rw [sequence, Reply.restoring_eq_failure_iff hp] at h
  obtain ⟨⟨m, h⟩, -⟩ := h
  rcases sequenceFrom_cases path 0 es p with
    ⟨ns, r, -, hr⟩ | ⟨pre, e, post, ns, r, rfl, hrun, -, hr⟩ <;> rw [hr] at h
  · cases h
  · obtain ⟨hpr, hr, -⟩ := hrun.bounds (fun e he => horderly e (List.mem_append_left _ he)) hp
    obtain ⟨d', hd', rfl⟩ := Reply.mapFailure_eq_failure_iff.mp h
    exact (hes e (by simp) path r d' m hr hd').mono (.refl path) hpr

/-- A choice that fails tells what stopped one of its alternatives. -/
theorem choiceAfter_failure (horderly : ∀ e ∈ es, ForestRecognizer.Orderly src e)
    (hp : p ≤ src.size) : ∀ {sofar : Option GroupDiagnosis},
    choiceAfter sofar es path p = .failure d q →
      d.cause = .failed path p ∨ (∃ b ∈ sofar, d.cause = b.cause) ∨
        ∃ e ∈ es, ∃ d', e path p = .failure d' p ∧ d.cause = d'.cause := by
  induction es with
  | nil =>
      intro sofar h
      cases sofar with
      | none =>
          simp only [choiceAfter, Reply.failure.injEq] at h
          exact Or.inl (h.1 ▸ rfl)
      | some b =>
          simp only [choiceAfter, Reply.failure.injEq] at h
          exact Or.inr (Or.inl ⟨b, rfl, h.1 ▸ rfl⟩)
  | cons e rest ih =>
      intro sofar h
      have he : ForestRecognizer.Orderly src e := horderly e List.mem_cons_self
      have ih := @ih fun e he => horderly e (List.mem_cons_of_mem _ he)
      rw [choiceAfter] at h
      cases hrun : e path p with
      | success f m => simp [hrun] at h
      | failure d' m =>
          obtain rfl := (he path p hp).returns d' m hrun
          simp only [hrun] at h
          have here {b : GroupDiagnosis} (hb : d.cause = b.cause) (hd : b = d') :
              ∃ e' ∈ e :: rest, ∃ d', e' path m = .failure d' m ∧ d.cause = d'.cause :=
            ⟨e, List.mem_cons_self, d', hrun, hd ▸ hb⟩
          split at h
          · rw [Reply.failure.injEq] at h
            exact Or.inr (Or.inr (here (h.1 ▸ rfl) rfl))
          · rcases ih h with hfailed | ⟨b, hb, hcause⟩ | ⟨e', he', d'', hrun', hcause⟩
            · exact Or.inl hfailed
            · -- what got furthest so far is the diagnosis before or this one
              obtain rfl := Option.mem_some_iff.mp hb
              cases sofar with
              | none => exact Or.inr (Or.inr (here hcause rfl))
              | some b =>
                  simp only [furthest] at hcause
                  split at hcause
                  · exact Or.inr (Or.inr (here hcause rfl))
                  · exact Or.inr (Or.inl ⟨b, rfl, hcause⟩)
            · exact Or.inr (Or.inr ⟨e', List.mem_cons_of_mem _ he', d'', hrun', hcause⟩)
      | fault f => simp [hrun] at h
      | unfinished => simp [hrun] at h

theorem choice_diagnoses (horderly : ∀ e ∈ es, ForestRecognizer.Orderly src e)
    (hes : ∀ e ∈ es, ForestRecognizer.Diagnoses src e) :
    ForestRecognizer.Diagnoses src (choice es) := by
  intro path p d q hp h
  rcases choiceAfter_failure horderly hp h with hcause | ⟨b, hb, -⟩ | ⟨e, he, d', hrun, hcause⟩
  · exact hcause ▸ .failed path hp
  · cases hb
  · exact hcause ▸ hes e he path p d' p hp hrun

/-- A set that fails has taken no member, or it tells how far the best order got, or a
member committed tokens behind an order of others. -/
theorem anyOrder_failure {members : List Member} {required : Nat}
    (horderly : ∀ m ∈ members, ForestRecognizer.Orderly src m.recognizer) (hp : p ≤ src.size)
    (h : anyOrder src members required path p = .failure d q) :
    d.cause = .failed path p ∨
      (∃ stop, p < stop ∧ stop ≤ src.size ∧ d.cause = .partway path p (stop - p)) ∨
      Quorum.Committed ⟨src, members.length, required⟩ path members 0 p d := by
  rw [anyOrder, Reply.restoring_eq_failure_iff hp] at h
  obtain ⟨⟨m, h⟩, -⟩ := h
  have hs := @Quorum.search_explores ⟨src, members.length, required⟩ path
    members.length members 0 p horderly hp
  cases hfound : Quorum.search ⟨src, members.length, required⟩ path members.length members 0 p with
  | success c r =>
      obtain ⟨⟨order, rest, hperm, htaken, hcount, -⟩, rfl⟩ := hs.ordered c r hfound
      have horder : ∀ m ∈ order, ForestRecognizer.Orderly src m.recognizer :=
        fun m hm => horderly m (hperm.subset (List.mem_append_left _ hm))
      obtain ⟨hle, hstop, -⟩ := htaken.bounds horder hp
      simp only [hfound, Reply.bind_success, Quorum.settle, Source.seek_of_le hstop,
        Reply.check_ok, distance_of_le hle] at h
      split at h
      · cases h
      · split at h
        · rw [Reply.failure.injEq] at h
          exact Or.inl (h.1 ▸ rfl)
        · -- an order that takes a member has moved on
          rename_i hsome
          have hmoved : r < c.stop := by
            refine Nat.lt_of_le_of_ne hle fun heq => hsome ?_
            rw [← heq] at htaken
            rw [hcount, htaken.eq_nil, List.length_nil]
          rw [Reply.failure.injEq] at h
          exact Or.inr (Or.inl ⟨c.stop, hmoved, hstop, h.1 ▸ rfl⟩)
  | failure d' r =>
      simp only [hfound, Reply.bind_failure, Reply.failure.injEq] at h
      exact Or.inr (Or.inr (h.1 ▸ Quorum.search_committed _ members 0 p d' r horderly hp hfound))
  | fault f => simp [hfound] at h
  | unfinished => simp [hfound] at h

theorem anyOrder_diagnoses {members : List Member} (required : Nat)
    (horderly : ∀ m ∈ members, ForestRecognizer.Orderly src m.recognizer)
    (hmembers : ∀ m ∈ members, ForestRecognizer.Diagnoses src m.recognizer) :
    ForestRecognizer.Diagnoses src (anyOrder src members required) := by
  intro path p d q hp h
  rcases anyOrder_failure horderly hp h with hcause | ⟨stop, hmoved, hstop, hcause⟩ |
    ⟨order, m, rest, ns, t, e, hperm, htaken, ht, hrun, -, rfl⟩
  · exact hcause ▸ .failed path hp
  · exact hcause ▸ .partway path hmoved hstop
  · have hm : m ∈ members := hperm.subset (by simp)
    exact (hmembers m hm path t e t ht hrun).mono (.refl path) htaken.le

/-- A run is stopped where its last occurrence was called. -/
theorem Cardinality.Repeats.stopped_at {c : Cardinality} {r : ForestRecognizer} {done : Nat}
    {run : Run} (h : c.Repeats (fun _ => r path) done p run q)
    (horderly : ForestRecognizer.Orderly src r) (hp : p ≤ src.size) :
    run.ending = .stopped d → p ≤ q ∧ q ≤ src.size ∧ r path q = .failure d q := by
  induction h with
  | full _ => simp
  | idle _ _ => simp
  | @more done p m q f run _ step _ _ ih =>
      obtain ⟨hpm, hm, -⟩ := (horderly path p hp).advances f m step
      intro hend
      obtain ⟨hmq, hq, hrun⟩ := ih hm hend
      exact ⟨Nat.le_trans hpm hmq, hq, hrun⟩
  | @stopped done p m e _ step =>
      obtain rfl := (horderly path p hp).returns e m step
      rintro ⟨⟩
      exact ⟨Nat.le_refl m, hp, step⟩

theorem Cardinality.repeating_diagnoses (c : Cardinality) (bound : Nat) {r : ForestRecognizer}
    (horderly : ForestRecognizer.Orderly src r) (hr : ForestRecognizer.Diagnoses src r) :
    ForestRecognizer.Diagnoses src (c.repeating src bound fun _ => r) := by
  intro path p d q hp h
  rcases c.repeating_cases src bound (fun _ => r) path p with
    ⟨run, m, -, -, heq⟩ | ⟨run, m, d', hrun, hend, -, heq⟩ | ⟨f, -, heq⟩ | ⟨-, heq⟩ <;>
    rw [heq] at h
  · cases h
  · obtain ⟨hpm, hm, hstop⟩ := hrun.stopped_at horderly hp hend
    obtain ⟨⟨_, h⟩, -⟩ := (Reply.restoring_eq_failure_iff hp).mp h
    rw [Reply.failure.injEq] at h
    exact h.1 ▸ (hr path m d' m hm hstop).mono (.refl path) hpm
  · cases h
  · cases h

end

/-! ## Rules -/

section

variable {scope : Scope} {path : Path} {p : Nat}

/-- A promotion stops where the failure lies that is promoted. -/
theorem Composite.conclude_wellFormed {src : Source} {d : GroupDiagnosis} (r : Composite)
    (h : d.cause.WellFormed src path p) : (r.conclude path p d).WellFormed src path p := by
  unfold conclude
  cases r.threshold with
  | none => exact h
  | some threshold =>
      by_cases hpromoted : d.cause.isFailed = true ∧ threshold ≤ d.count ∧ 0 < d.cause.stop - p
      · simp only [if_pos hpromoted]
        have hposition : d.cause.position = d.cause.stop := by
          cases hcause : d.cause with
          | failed path' p' => rfl
          | incomplete _ _ _ _ _ => simp [hcause, Diagnosis.isFailed] at hpromoted
        refine .incomplete path (by omega) h.stop_le_size ?_
        rintro c ⟨⟩
        exact ⟨rfl, hpromoted.1, hposition, h.encloses⟩
      · simp only [if_neg hpromoted]
        exact h

variable (horderly : ∀ symbol, NodeRecognizer.Orderly scope.source (scope.production symbol))
variable (hproduction : ∀ symbol, NodeRecognizer.Diagnoses scope.source (scope.production symbol))

include horderly hproduction

/-- **Elements.** What kinds and elements say is well-formed if what the productions in
scope say is. -/
theorem Kind.recognizer_diagnoses :
    (∀ k : Kind, ForestRecognizer.Diagnoses scope.source (k.recognizer scope)) ∧
      ∀ e : Element, ForestRecognizer.Diagnoses scope.source (e.recognizer scope) := by
  obtain ⟨hkinds, helements⟩ := Kind.recognizer_orderly horderly
  apply Kind.induction
  · intro symbol path p d q hp h
    rw [Kind.recognizer, Reply.toForest_eq_failure_iff] at h
    exact (hproduction symbol _ p d.cause q hp h.1).mono (.child path symbol) (Nat.le_refl p)
  · intro rule path p d q hp h
    rw [Kind.recognizer, Reply.toForest_eq_failure_iff] at h
    exact (rule.recognize_diagnoses _ p d.cause q hp h.1).mono (.child path _) (Nat.le_refl p)
  · intro aggregation elements ih
    rw [Kind.recognizer]
    cases aggregation with
    | sequence =>
        simp only [Aggregation.recognizer, Element.map_recognizer_members]
        exact sequence_diagnoses (List.forall_mem_map.mpr fun e _ => helements e)
          (List.forall_mem_map.mpr ih)
    | choice =>
        simp only [Aggregation.recognizer, Element.map_recognizer_members]
        exact choice_diagnoses (List.forall_mem_map.mpr fun e _ => helements e)
          (List.forall_mem_map.mpr ih)
    | set minimum =>
        refine anyOrder_diagnoses _ (members_orderly fun e _ => helements e) ?_
        rw [Element.members_eq_map]
        exact List.forall_mem_map.mpr ih
  · intro kind cardinality ih
    rw [Element.recognizer_mk]
    exact cardinality.repeating_diagnoses _ (hkinds kind) ih

theorem Group.recognizer_diagnoses (g : Group) :
    ForestRecognizer.Diagnoses scope.source (g.recognizer scope) := by
  rw [← Group.recognizer_toKind]
  exact (Kind.recognizer_diagnoses horderly hproduction).1 _

theorem Rule.recognizer_diagnoses (r : Rule) :
    NodeRecognizer.Diagnoses scope.source (r.recognizer scope) := by
  intro path p d q hp h
  cases r with
  | terminal rule => exact rule.recognize_diagnoses path p d q hp h
  | composite r =>
      rw [Rule.recognizer] at h
      rcases r.recognizer_cases path (r.group.recognizer_orderly horderly) hp with
        ⟨f, m, -, hr⟩ | ⟨d', hrun, hr⟩ | ⟨-, hr⟩ <;> rw [hr] at h
      · cases h
      · rw [Reply.failure.injEq] at h
        have hgroup := r.group.recognizer_diagnoses horderly hproduction path p d' p hp hrun
        exact h.1 ▸ r.conclude_wellFormed hgroup
      · cases h

theorem Production.recognizer_diagnoses (r : Production) (fallback : Option Validator) :
    NodeRecognizer.Diagnoses scope.source (r.recognizer fallback scope) := by
  intro path p d q hp h
  rw [Production.recognizer] at h
  cases hrun : r.rule.recognizer scope path p with
  | success n m =>
      obtain ⟨hpm, hm, -⟩ := (r.rule.recognizer_orderly horderly path p hp).advances n m hrun
      simp only [hrun, Reply.bind_success, validated, distance_of_le hpm, Source.seek_of_le hp,
        Reply.check_ok] at h
      split at h
      · cases h
      · split at h
        · rw [Reply.failure.injEq] at h
          exact h.1 ▸ .failed path hp
        · rw [Reply.failure.injEq] at h
          exact h.1 ▸ .incomplete path (by omega) hm (by simp)
  | failure e m =>
      rw [hrun, Reply.bind_failure, Reply.failure.injEq] at h
      exact h.1 ▸ r.rule.recognizer_diagnoses horderly hproduction path p e m hp hrun
  | fault f => simp [hrun] at h
  | unfinished => simp [hrun] at h

end

/-! ## Languages -/

namespace Language

variable (l : Language) (src : Source)

theorem scope_diagnoses (n : Nat) : ∀ symbol,
    NodeRecognizer.Diagnoses (l.scope src n).source ((l.scope src n).production symbol) := by
  induction n with
  | zero =>
      intro symbol path p d q _ h
      cases h
  | succ n ih =>
      intro symbol path p d q hp h
      rw [scope_source] at hp ⊢
      rw [scope_production_succ, production] at h
      cases hfind : l.grammar.find? symbol with
      | some r =>
          simp only [hfind] at h
          have hproduction := r.recognizer_diagnoses (l.scope_orderly src n) ih
            (l.validators symbol)
          rw [scope_source] at hproduction
          exact hproduction path p d q hp h
      | none =>
          simp only [hfind, Reply.failure.injEq] at h
          exact h.1 ▸ .failed path hp

end Language

/-- **Diagnoses.** Whatever the language, its validators and the input, and whatever is
recognized, a diagnosis lies below the path and behind the position that recognition
was entered with, and within the input; it commits some token if any, and it is
promoted from one failure, where it stops, or refused, but not both. -/
theorem recognition_diagnoses (l : Language) (src : Source) {p : Nat} (hp : p ≤ src.size)
    (path : Path) :
    (∀ symbol text d q, l.recognize symbol text = .failure d q →
        d.WellFormed (.ofString text) (.root symbol) 0) ∧
      (∀ symbol d q, l.recognizeAt src symbol p = .failure d q →
        d.WellFormed src (.root symbol) p) ∧
      (∀ symbol d q, l.recognizeBelow src symbol path p = .failure d q →
        d.WellFormed src (path.child symbol) p) ∧
      (∀ (r : Production) (fallback : Option Validator) d q,
        r.recognizer fallback (l.fullScope src) path p = .failure d q →
          d.WellFormed src path p) ∧
      (∀ (r : Rule) d q, r.recognizer (l.fullScope src) path p = .failure d q →
        d.WellFormed src path p) ∧
      (∀ (e : Element) d q, e.recognizer (l.fullScope src) path p = .failure d q →
        d.cause.WellFormed src path p) ∧
      (∀ (k : Kind) d q, k.recognizer (l.fullScope src) path p = .failure d q →
        d.cause.WellFormed src path p) ∧
      ∀ (g : Group) d q, g.recognizer (l.fullScope src) path p = .failure d q →
        d.cause.WellFormed src path p := by
  have production (src : Source) (symbol : String) (path : Path) {p : Nat} (hp : p ≤ src.size)
      {d : Diagnosis} {q : Nat} (h : (l.fullScope src).production symbol path p = .failure d q) :
      d.WellFormed src path p := by
    have hscope := l.scope_diagnoses src (l.stage src) symbol
    rw [Language.scope_source] at hscope
    exact hscope path p d q hp h
  have horderly := l.scope_orderly src (l.stage src)
  have hscope := l.scope_diagnoses src (l.stage src)
  obtain ⟨hkinds, helements⟩ := Kind.recognizer_diagnoses horderly hscope
  have hsource : (l.fullScope src).source = src := l.scope_source src _
  have hp' : p ≤ (l.fullScope src).source.size := by rw [hsource]; exact hp
  refine ⟨fun symbol text d q h => production _ symbol _ (Nat.zero_le _) h,
    fun symbol d q h => production src symbol _ hp h,
    fun symbol d q h => production src symbol _ hp h,
    fun r fallback d q h => ?_, fun r d q h => ?_, fun e d q h => ?_, fun k d q h => ?_,
    fun g d q h => ?_⟩
  · exact hsource ▸ r.recognizer_diagnoses horderly hscope fallback path p d q hp' h
  · exact hsource ▸ r.recognizer_diagnoses horderly hscope path p d q hp' h
  · exact hsource ▸ helements e path p d q hp' h
  · exact hsource ▸ hkinds k path p d q hp' h
  · exact hsource ▸ g.recognizer_diagnoses horderly hscope path p d q hp' h

/-- The letter that the pair lacks, which the letter before it made a promotion. -/
def missingLetter : Diagnosis :=
  .promoted (.root "pair") 1 1 (.failed ((Path.root "pair").child "@Literal") 2)

theorem recognition_diagnoses_pair :
    1 ≤ (Source.ofString "bac").size ∧
      pairLanguage.recognizeAt (Source.ofString "bac") "pair" 1 = .failure missingLetter 1 ∧
      missingLetter.WellFormed (Source.ofString "bac") (.root "pair") 1 := by
  have hrun : pairLanguage.recognizeAt (Source.ofString "bac") "pair" 1 =
      .failure missingLetter 1 := by
    rfl
  have hdiagnoses := recognition_diagnoses pairLanguage (Source.ofString "bac") (p := 1)
    (by decide) (.root "pair")
  exact ⟨by decide, hrun, hdiagnoses.2.1 "pair" _ _ hrun⟩

end ConcreteSyntax
