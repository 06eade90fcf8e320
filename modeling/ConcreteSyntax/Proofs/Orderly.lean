import ConcreteSyntax.Proofs.GroupRuns

/-!
# Orderly recognizers

A recognizer is orderly if, entered within the input, it makes no request outside
its domain, is back where it was entered when it does not succeed, and otherwise
stands at a position not before that, within the input, with all its nodes in
between. The ways of combining recognizers keep them orderly.
-/

namespace ConcreteSyntax

/-- Do the tokens from `p` up to `q` include all that the node covers? -/
def Node.Within (n : Node) (p q : Nat) : Prop := p ≤ n.segment.offset ∧ n.segment.stop ≤ q

/-- Do the tokens from `p` up to `q` include all that the nodes cover? -/
def Forest.Within (f : Forest) (p q : Nat) : Prop := ∀ n ∈ f.nodes, n.Within p q

theorem Node.Within.mono {n : Node} {p p' q q' : Nat} (h : n.Within p q) (hp : p' ≤ p)
    (hq : q ≤ q') : n.Within p' q' :=
  ⟨Nat.le_trans hp h.1, Nat.le_trans h.2 hq⟩

/-- A reply that an orderly recognizer may give when entered at `entry`; `covers`
says what may be recognized between two positions. -/
structure Reply.Orderly {ε α : Type} (covers : α → Nat → Nat → Prop) (src : Source)
    (entry : Nat) (r : Reply ε α) : Prop where
  advances : ∀ v q, r = .success v q → entry ≤ q ∧ q ≤ src.size ∧ covers v entry q
  returns : ∀ e q, r = .failure e q → q = entry
  answers : ∀ f, r ≠ .fault f

/-- Every node recognized lies within the tokens read for it. -/
def NodeRecognizer.Orderly (src : Source) (r : NodeRecognizer) : Prop :=
  ∀ path p, p ≤ src.size → (r path p).Orderly Node.Within src p

/-- All nodes recognized lie within the tokens read for them. -/
def ForestRecognizer.Orderly (src : Source) (r : ForestRecognizer) : Prop :=
  ∀ path p, p ≤ src.size → (r path p).Orderly Forest.Within src p

namespace Reply.Orderly

variable {ε α : Type} {covers : α → Nat → Nat → Prop} {src : Source} {entry : Nat}

theorem success {v : α} {q : Nat} (h₁ : entry ≤ q) (h₂ : q ≤ src.size) (h₃ : covers v entry q) :
    (Reply.success v q : Reply ε α).Orderly covers src entry where
  advances := by
    rintro v' q' ⟨⟩
    exact ⟨h₁, h₂, h₃⟩
  returns := by simp
  answers := by simp

theorem failure (e : ε) : (Reply.failure e entry : Reply ε α).Orderly covers src entry where
  advances := by simp
  returns := by simp
  answers := by simp

theorem unfinished : (Reply.unfinished : Reply ε α).Orderly covers src entry where
  advances := by simp
  returns := by simp
  answers := by simp

/-- What is recognized under a checkpoint need not itself return. -/
theorem restoring {r : Reply ε α} (hentry : entry ≤ src.size)
    (advances : ∀ v q, r = .success v q → entry ≤ q ∧ q ≤ src.size ∧ covers v entry q)
    (answers : ∀ f, r ≠ .fault f) : (Reply.restoring src entry r).Orderly covers src entry := by
  cases r with
  | success v q =>
      obtain ⟨h₁, h₂, h₃⟩ := advances v q rfl
      exact .success h₁ h₂ h₃
  | failure e q =>
      rw [Reply.restoring, Source.seek_of_le hentry]
      exact .failure e
  | fault f => exact absurd rfl (answers f)
  | unfinished => exact .unfinished

theorem toForest {r : Reply Diagnosis Node} (h : r.Orderly Node.Within src entry) :
    r.toForest.Orderly Forest.Within src entry := by
  cases r with
  | success n q =>
      obtain ⟨h₁, h₂, h₃⟩ := h.advances n q rfl
      refine .success h₁ h₂ ?_
      intro m hm
      obtain rfl := List.mem_singleton.mp hm
      exact h₃
  | failure d q =>
      obtain rfl := h.returns d q rfl
      exact .failure _
  | fault f => exact absurd rfl (h.answers f)
  | unfinished => exact .unfinished

end Reply.Orderly

/-! ## Groups -/

section

variable {src : Source} {path : Path}

/-- Nodes from one position to another, then nodes from there on. -/
theorem within_append {ns ms : List Node} {p q r : Nat} (hpq : p ≤ q) (hqr : q ≤ r)
    (hns : ∀ n ∈ ns, n.Within p q) (hms : ∀ n ∈ ms, n.Within q r) :
    ∀ n ∈ ns ++ ms, n.Within p r := by
  intro n hn
  rcases List.mem_append.mp hn with hn | hn
  · exact (hns n hn).mono (Nat.le_refl p) hqr
  · exact (hms n hn).mono hpq (Nat.le_refl r)

theorem InTurn.bounds {es : List ForestRecognizer} {p q : Nat} {ns : List Node}
    (h : InTurn path es p ns q) (hes : ∀ e ∈ es, ForestRecognizer.Orderly src e)
    (hp : p ≤ src.size) : p ≤ q ∧ q ≤ src.size ∧ ∀ n ∈ ns, n.Within p q := by
  induction h with
  | nil p => exact ⟨Nat.le_refl p, hp, fun _ h => absurd h List.not_mem_nil⟩
  | cons first _ ih =>
      obtain ⟨h₁, h₂, h₃⟩ := (hes _ List.mem_cons_self path _ hp).advances _ _ first
      obtain ⟨h₄, h₅, h₆⟩ := ih (fun e he => hes e (List.mem_cons_of_mem _ he)) h₂
      exact ⟨Nat.le_trans h₁ h₄, h₅, within_append h₁ h₄ h₃ h₆⟩

theorem AllFail.stays {es : List ForestRecognizer} {p q : Nat} (h : AllFail path es p q)
    (hes : ∀ e ∈ es, ForestRecognizer.Orderly src e) (hp : p ≤ src.size) : q = p := by
  induction h with
  | nil p => rfl
  | cons first _ _ ih =>
      obtain rfl := (hes _ List.mem_cons_self path _ hp).returns _ _ first
      exact ih (fun e he => hes e (List.mem_cons_of_mem _ he)) hp

theorem sequence_orderly {es : List ForestRecognizer}
    (hes : ∀ e ∈ es, ForestRecognizer.Orderly src e) :
    ForestRecognizer.Orderly src (sequence src es) := by
  intro path p hp
  rcases sequenceFrom_cases path 0 es p with
    ⟨ns, q, hrun, hr⟩ | ⟨pre, e, post, ns, m, rfl, hrun, hm, hr⟩
  · refine .restoring hp ?_ (by simp [hr])
    rw [hr]
    rintro f q ⟨⟩
    exact hrun.bounds hes hp
  · have hpre := hrun.bounds (fun e he => hes e (List.mem_append_left _ he)) hp
    have he := hes e (by simp) path m hpre.2.1
    refine .restoring hp ?_ ?_ <;> rw [hr] <;> cases h : e path m with
    | success f q => exact absurd h (hm f q)
    | fault f => exact absurd h (he.answers f)
    | _ => simp [Reply.mapFailure]

theorem choice_success {es : List ForestRecognizer} {f : Forest} {p q : Nat}
    (hes : ∀ e ∈ es, ForestRecognizer.Orderly src e) (hp : p ≤ src.size)
    (h : choice es path p = .success f q) : ∃ e ∈ es, e path p = .success f q := by
  rw [choice] at h
  rcases choiceAfter_cases path none es p (by simp) with
    ⟨pre, e, post, m, rfl, hpre, -, hr⟩ | ⟨d, m, -, -, -, hr⟩ <;> rw [hr] at h
  · obtain rfl := hpre.stays (fun e he => hes e (List.mem_append_left _ he)) hp
    exact ⟨e, by simp, h⟩
  · cases h

theorem choice_orderly {es : List ForestRecognizer}
    (hes : ∀ e ∈ es, ForestRecognizer.Orderly src e) :
    ForestRecognizer.Orderly src (choice es) := by
  intro path p hp
  rcases choiceAfter_cases path none es p (by simp) with
    ⟨pre, e, post, m, rfl, hpre, -, hr⟩ | ⟨d, q, hall, -, -, hr⟩
  · obtain rfl := hpre.stays (fun e he => hes e (List.mem_append_left _ he)) hp
    rw [choice, hr]
    exact hes e (by simp) path m hp
  · obtain rfl := hall.stays hes hp
    rw [choice, hr]
    exact .failure d

end

/-! ## Repetition -/

namespace Cardinality

variable {c : Cardinality} {src : Source} {occurrence : Nat → Nat → Reply GroupDiagnosis Forest}

theorem Repeats.bounds {done p q : Nat} {run : Run} (h : c.Repeats occurrence done p run q)
    (hocc : ∀ done p, p ≤ src.size → (occurrence done p).Orderly Forest.Within src p)
    (hp : p ≤ src.size) : p ≤ q ∧ q ≤ src.size ∧ ∀ n ∈ run.nodes, n.Within p q := by
  induction h with
  | full _ => exact ⟨Nat.le_refl _, hp, fun _ h => absurd h List.not_mem_nil⟩
  | idle _ step => exact (hocc _ _ hp).advances _ _ step
  | more _ step _ _ ih =>
      obtain ⟨h₁, h₂, h₃⟩ := (hocc _ _ hp).advances _ _ step
      obtain ⟨h₄, h₅, h₆⟩ := ih h₂
      exact ⟨Nat.le_trans h₁ h₄, h₅, within_append h₁ h₄ h₃ h₆⟩
  | stopped _ step =>
      obtain rfl := (hocc _ _ hp).returns _ _ step
      exact ⟨Nat.le_refl _, hp, fun _ h => absurd h List.not_mem_nil⟩

theorem runFrom_ne_fault (c : Cardinality) (hocc : ∀ done p, p ≤ src.size →
    (occurrence done p).Orderly Forest.Within src p) (f : Fault) :
    ∀ {bound done p : Nat}, p ≤ src.size → c.runFrom occurrence bound done p ≠ .fault f := by
  intro bound
  induction bound with
  | zero =>
      intro done p _
      rw [runFrom.eq_def]
      by_cases hfull : c.isFull done <;> simp [hfull]
  | succ bound ih =>
      intro done p hp
      rw [runFrom]
      by_cases hfull : c.isFull done
      · simp [hfull]
      · simp only [hfull, Bool.false_eq_true, if_false]
        cases hstep : occurrence done p with
        | success g q =>
            obtain ⟨-, hq, -⟩ := (hocc _ _ hp).advances _ _ hstep
            by_cases hmoved : q = p
            · simp [hmoved]
            · have ih := @ih (done + 1) q hq
              cases hrest : c.runFrom occurrence bound (done + 1) q with
              | fault f' =>
                  rw [hrest] at ih
                  simpa [hmoved, hrest, Reply.map] using ih
              | _ => simp [hmoved, hrest, Reply.map]
        | fault f' => exact absurd hstep ((hocc _ _ hp).answers f')
        | _ => simp

theorem repeating_orderly (c : Cardinality) (bound : Nat) {r : ForestRecognizer}
    (hr : ForestRecognizer.Orderly src r) :
    ForestRecognizer.Orderly src (c.repeating src bound fun _ => r) := by
  intro path p hp
  have hocc : ∀ (_ : Nat) q, q ≤ src.size → (r path q).Orderly Forest.Within src q :=
    fun _ q hq => hr path q hq
  rcases repeating_cases c src bound (fun _ => r) path p with
    ⟨run, q, hrun, -, h⟩ | ⟨run, q, d, -, -, -, h⟩ | ⟨f, hrun, -⟩ | ⟨-, h⟩ <;> try rw [h]
  · obtain ⟨h₁, h₂, h₃⟩ := hrun.bounds hocc hp
    exact .success h₁ h₂ h₃
  · exact .restoring hp (by simp) (by simp)
  · exact absurd hrun (c.runFrom_ne_fault hocc f hp)
  · exact .unfinished

end Cardinality

end ConcreteSyntax
