import ConcreteSyntax.Proofs.Commitment

/-!
# Steps

With the counts left out, all that matters of a recognizer is what it does from a position
on: a step. Steps can follow each other, and then it makes no difference how they are
bracketed nor where a failed one leaves the cursor, if it is put back to where the first
began. A sequence is the steps of its elements, one after the other, and an element that
occurs once is the step of what it is about.
-/

namespace ConcreteSyntax

/-! ## Steps after each other -/

/-- From a position to nodes or to the reason why there are none. -/
abbrev Step := Nat → Reply Diagnosis (List Node)

namespace Reply

/-- Go on with a further step. The nodes are those of both. -/
def andThen (r : Reply Diagnosis (List Node)) (next : Step) : Reply Diagnosis (List Node) :=
  r.bind fun ns q => (next q).map (ns ++ ·)

/-- The answer with the cursor put back to `entry` if nothing was recognized. -/
def backTo {ε α : Type} (entry : Nat) : Reply ε α → Reply ε α
  | failure e _ => failure e entry
  | r => r

variable {r : Reply Diagnosis (List Node)} {next next' : Step}

@[simp] theorem nil_andThen (p : Nat) (next : Step) : (success [] p).andThen next = next p := by
  simp only [andThen, bind_success, List.nil_append]
  cases next p <;> rfl

@[simp] theorem andThen_nil (r : Reply Diagnosis (List Node)) :
    r.andThen (fun p => .success [] p) = r := by
  cases r with
  | success ns q => simp only [andThen, bind_success, map, List.append_nil]
  | _ => rfl

theorem andThen_assoc (r : Reply Diagnosis (List Node)) (next last : Step) :
    (r.andThen next).andThen last = r.andThen fun q => (next q).andThen last := by
  cases r with
  | success ns q =>
      simp only [andThen, bind_success]
      cases next q with
      | success ms m =>
          simp only [map, bind_success]
          cases last m <;> simp
      | _ => rfl
  | _ => rfl

theorem andThen_congr (h : ∀ ns q, r = .success ns q → next q = next' q) :
    r.andThen next = r.andThen next' := by
  cases r with
  | success ns q => simp only [andThen, bind_success, h ns q rfl]
  | _ => rfl

/-- Only the cursor of the whole matters. -/
theorem backTo_andThen (entry middle : Nat) (r : Reply Diagnosis (List Node)) (next : Step) :
    ((r.backTo middle).andThen fun q => (next q).backTo q).backTo entry =
      (r.andThen next).backTo entry := by
  cases r with
  | success ns q =>
      simp only [backTo, andThen, bind_success]
      cases next q <;> rfl
  | _ => rfl

theorem uncounted_restoring {src : Source} {entry : Nat} (h : entry ≤ src.size)
    (r : Reply GroupDiagnosis Forest) :
    (restoring src entry r).uncounted = r.uncounted.backTo entry := by
  cases r with
  | failure d q =>
      rw [restoring, Source.seek_of_le h]
      rfl
  | _ => rfl

end Reply

/-! ## Sequences of steps -/

namespace Step

/-- The steps in order. -/
def inOrder : List Step → Step
  | [], p => .success [] p
  | s :: rest, p => (s p).andThen (inOrder rest)

/-- The step stays within an input of so many tokens. -/
def Within (size : Nat) (s : Step) : Prop :=
  ∀ p ≤ size, ∀ ns q, s p = .success ns q → q ≤ size

theorem inOrder_congr {size : Nat} {ss ss' : List Step}
    (h : ss.Forall₂ (fun s s' => ∀ p ≤ size, s p = s' p) ss') (hwithin : ∀ s ∈ ss', s.Within size) :
    ∀ p ≤ size, inOrder ss p = inOrder ss' p := by
  induction h with
  | nil =>
      intro p _
      rfl
  | @cons s s' ss ss' hs _ ih =>
      intro p hp
      rw [inOrder, inOrder, hs p hp]
      refine Reply.andThen_congr fun ns q hq => ?_
      exact ih (fun t ht => hwithin t (List.mem_cons_of_mem _ ht)) q
        (hwithin s' List.mem_cons_self p hp ns q hq)

end Step

/-! ## Recognizers as steps -/

/-- What the recognizer does under a path, with counts left out. -/
def ForestRecognizer.step (r : ForestRecognizer) (path : Path) : Step :=
  fun p => (r path p).uncounted

section

variable {src : Source} {path : Path}

theorem ForestRecognizer.Orderly.step_within {r : ForestRecognizer}
    (h : ForestRecognizer.Orderly src r) (path : Path) : (r.step path).Within src.size := by
  intro p hp ns q hq
  obtain ⟨f, hrun, -⟩ := Reply.uncounted_eq_success_iff.mp hq
  exact ((h path p hp).advances f q hrun).2.1

/-- Where an element stands in a sequence shows in the counts only. -/
theorem uncounted_sequenceFrom (path : Path) : ∀ (es : List ForestRecognizer) (index p : Nat),
    (sequenceFrom index es path p).uncounted =
      Step.inOrder (es.map fun e => e.step path) p
  | [], _, _ => rfl
  | e :: rest, index, p => by
      rw [List.map_cons, Step.inOrder, sequenceFrom, ForestRecognizer.step]
      cases e path p with
      | success f q =>
          have ih := uncounted_sequenceFrom path rest (index + 1) q
          simp only [Reply.uncounted, Reply.map, Reply.mapFailure, Reply.andThen,
            Reply.bind_success] at ih ⊢
          rw [← ih]
          cases sequenceFrom (index + 1) rest path q <;> rfl
      | _ => rfl

/-- **Sequences.** Without the counts a sequence is its elements in order. -/
theorem sequence_step (es : List ForestRecognizer) {p : Nat} (hp : p ≤ src.size) :
    (sequence src es).step path p =
      (Step.inOrder (es.map fun e => e.step path) p).backTo p := by
  rw [ForestRecognizer.step, sequence, Reply.uncounted_restoring hp, uncounted_sequenceFrom]

/-- **Single occurrences.** To occur once is to occur. -/
theorem once_step {r : ForestRecognizer} (hr : ForestRecognizer.Orderly src r) {bound p : Nat}
    (hbound : 0 < bound) (hp : p ≤ src.size) :
    ForestRecognizer.step (Cardinality.once.repeating src bound fun _ => r) path p =
      r.step path p := by
  obtain ⟨bound, rfl⟩ := Nat.exists_eq_add_one.mpr hbound
  have hempty : Cardinality.once.isFull 0 = false := rfl
  have hfull : Cardinality.once.isFull 1 = true := rfl
  rw [ForestRecognizer.step, Cardinality.repeating, Reply.uncounted_restoring hp,
    ForestRecognizer.step, Cardinality.runFrom]
  simp only [hempty, Bool.false_eq_true, if_false]
  cases hrun : r path p with
  | success f q =>
      by_cases hmoved : q = p
      · simp only [hmoved, if_true]
        rfl
      · simp only [hmoved, if_false]
        rw [Cardinality.runFrom.eq_def]
        simp only [Nat.zero_add, hfull, if_true]
        exact congrArg (Reply.success · q) (List.append_nil f.nodes)
  | failure d q =>
      obtain rfl := (hr path p hp).returns d q hrun
      simp [Cardinality.judge, Cardinality.once, Reply.uncounted, Reply.backTo, Reply.map,
        Reply.mapFailure, GroupDiagnosis.withCount]
  | fault f => rfl
  | unfinished => rfl

end

end ConcreteSyntax
