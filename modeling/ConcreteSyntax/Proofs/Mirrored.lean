import ConcreteSyntax.Proofs.Approximation
import ConcreteSyntax.Proofs.Shifted

/-!
# Two recognitions side by side

Two inputs hold the same tokens, in the first `k` places further on, and two
recognitions are entered at corresponding places, each under a path of its own. They
mirror each other if they come to the same: to nodes that differ by these places alone,
or to diagnoses that say of one path what the other says of the other. Every way of
combining recognizers preserves this, since none asks where it stands but to compare it
with where it was entered, and none looks at a path.
-/

namespace ConcreteSyntax

/-! ## Diagnoses -/

/-- The first diagnosis says below `path` what the second says below `path'`, at a
position `k` places further on: one kind, one length, one reason, paths that prolong the
two given ones by the same symbols, and causes of which all this holds again. -/
inductive Diagnosis.Mirrors (k : Nat) (path path' : Path) : Diagnosis → Diagnosis → Prop where
  | failed (below : List String) (n : Nat) :
      Diagnosis.Mirrors k path path' (.failed (path.extend below) (n + k))
        (.failed (path'.extend below) n)
  | uncaused (below : List String) (n length : Nat) (reason : Option String) :
      Diagnosis.Mirrors k path path' (.incomplete (path.extend below) (n + k) length reason none)
        (.incomplete (path'.extend below) n length reason none)
  | caused (below : List String) (n length : Nat) (reason : Option String)
      {cause cause' : Diagnosis} (deeper : Diagnosis.Mirrors k path path' cause cause') :
      Diagnosis.Mirrors k path path'
        (.incomplete (path.extend below) (n + k) length reason (some cause))
        (.incomplete (path'.extend below) n length reason (some cause'))

namespace Diagnosis.Mirrors

variable {k : Nat} {path path' : Path} {d d' : Diagnosis}

/-- What is said below a symbol is said below the path before it. -/
theorem of_child {symbol : String}
    (h : d.Mirrors k (path.child symbol) (path'.child symbol) d') :
    d.Mirrors k path path' d' := by
  induction h with
  | failed below n => exact .failed (symbol :: below) n
  | uncaused below n length reason => exact .uncaused (symbol :: below) n length reason
  | caused below n length reason _ ih => exact .caused (symbol :: below) n length reason ih

/-- Under one path nothing but the places differs. -/
theorem eq_shift (h : d.Mirrors k path path d') : d = d'.shift k := by
  induction h with
  | failed below n => rfl
  | uncaused below n length reason => rfl
  | caused below n length reason _ ih => rw [ih, Diagnosis.shift]

theorem isIncomplete_eq (h : d.Mirrors k path path' d') : d.isIncomplete = d'.isIncomplete := by
  cases h <;> rfl

theorem isFailed_eq (h : d.Mirrors k path path' d') : d.isFailed = d'.isFailed := by
  cases h <;> rfl

theorem stop_eq (h : d.Mirrors k path path' d') : d.stop = d'.stop + k := by
  cases h <;> simp only [stop, position, length] <;> omega

theorem here (path path' : Path) (n : Nat) :
    (Diagnosis.failed path (n + k)).Mirrors k path path' (.failed path' n) := .failed [] n

theorem partway (path path' : Path) (n length : Nat) :
    (Diagnosis.partway path (n + k) length).Mirrors k path path' (.partway path' n length) :=
  .uncaused [] n length none

end Diagnosis.Mirrors

/-- The same count, and causes that mirror each other. -/
structure GroupDiagnosis.Mirrors (k : Nat) (path path' : Path) (d d' : GroupDiagnosis) :
    Prop where
  count : d.count = d'.count
  cause : d.cause.Mirrors k path path' d'.cause

theorem GroupDiagnosis.Mirrors.withCount {k : Nat} {path path' : Path} {d d' : GroupDiagnosis}
    (h : d.Mirrors k path path' d') (n : Nat) :
    (d.withCount n).Mirrors k path path' (d'.withCount n) :=
  ⟨rfl, h.cause⟩

/-! ## Requests -/

/-- Both requests lie outside their domain, or both have answers, which are so related. -/
inductive RequestsMirror {β β' : Type} (related : β → β' → Prop) :
    Except Fault β → Except Fault β' → Prop where
  | ok {b : β} {b' : β'} (h : related b b') : RequestsMirror related (.ok b) (.ok b')
  | error (f f' : Fault) : RequestsMirror related (.error f) (.error f')

section

variable {k : Nat}

theorem Source.Tail.seek_mirrors {src src' : Source} (h : src.Tail src' k) (target : Nat) :
    RequestsMirror (fun p p' => p = p' + k) (src.seek (target + k)) (src'.seek target) := by
  rw [Source.seek, Source.seek]
  simp only [h.le_size_iff]
  split
  · exact .ok rfl
  · exact .error _ _

theorem distance_mirrors (k a b : Nat) :
    RequestsMirror (· = ·) (distance (a + k) (b + k)) (distance a b) := by
  rw [distance, distance]
  simp only [Nat.add_le_add_iff_right, Nat.add_sub_add_right]
  split
  · exact .ok rfl
  · exact .error _ _

theorem Segment.ofBounds_mirrors (k a b : Nat) :
    RequestsMirror (fun s s' => s = s'.shift k) (ofBounds (a + k) (b + k)) (ofBounds a b) := by
  rw [ofBounds, ofBounds]
  simp only [Nat.add_le_add_iff_right, Nat.add_sub_add_right]
  split
  · exact .ok rfl
  · exact .error _ _

theorem Node.ofChildren_mirrors (k : Nat) (symbol : String) (seg : Segment) (nodes : List Node) :
    RequestsMirror (fun n n' => n = n'.shift k)
      (ofChildren symbol (seg.shift k) (nodes.map (Node.shift k)))
      (ofChildren symbol seg nodes) := by
  have hcovered : ((nodes.map (Node.shift k)).all fun c => c.segment.coveredBy (seg.shift k)) =
      nodes.all fun c => c.segment.coveredBy seg := by
    simp only [List.all_map, Function.comp_def, segment_shift, Segment.coveredBy_shift]
  rw [ofChildren, ofChildren, hcovered]
  split
  · refine .ok ?_
    rw [Node.shift, Node.shiftAll_eq_map]
  · exact .error _ _

end

/-! ## Replies -/

/-- Replies of one sort, at positions that correspond, with values or errors that do. -/
inductive Reply.Mirrors {ε ε' α α' : Type} (k : Nat) (fails : ε → ε' → Prop)
    (yields : α → α' → Prop) : Reply ε α → Reply ε' α' → Prop where
  | success {v : α} {v' : α'} (q : Nat) (h : yields v v') :
      Reply.Mirrors k fails yields (.success v (q + k)) (.success v' q)
  | failure {e : ε} {e' : ε'} (q : Nat) (h : fails e e') :
      Reply.Mirrors k fails yields (.failure e (q + k)) (.failure e' q)
  | fault (f f' : Fault) : Reply.Mirrors k fails yields (.fault f) (.fault f')
  | unfinished : Reply.Mirrors k fails yields .unfinished .unfinished

namespace Reply.Mirrors

variable {ε ε' α α' β β' : Type} {k : Nat} {fails : ε → ε' → Prop} {yields : α → α' → Prop}
variable {r : Reply ε α} {r' : Reply ε' α'}

theorem outcomes (h : r.Mirrors k fails yields r') :
    (∃ v v' q, r = .success v (q + k) ∧ r' = .success v' q ∧ yields v v') ∨
      (∃ e e' q, r = .failure e (q + k) ∧ r' = .failure e' q ∧ fails e e') ∨
      (∃ f f', r = .fault f ∧ r' = .fault f') ∨ r = .unfinished ∧ r' = .unfinished := by
  cases h with
  | @success v v' q h => exact Or.inl ⟨v, v', q, rfl, rfl, h⟩
  | @failure e e' q h => exact Or.inr (Or.inl ⟨e, e', q, rfl, rfl, h⟩)
  | fault f f' => exact Or.inr (Or.inr (Or.inl ⟨f, f', rfl, rfl⟩))
  | unfinished => exact Or.inr (Or.inr (Or.inr ⟨rfl, rfl⟩))

theorem bind {yields' : β → β' → Prop} {next : α → Nat → Reply ε β}
    {next' : α' → Nat → Reply ε' β'} (h : r.Mirrors k fails yields r')
    (hnext : ∀ v v' q, yields v v' → (next v (q + k)).Mirrors k fails yields' (next' v' q)) :
    (r.bind next).Mirrors k fails yields' (r'.bind next') := by
  cases h with
  | success q h => exact hnext _ _ q h
  | failure q h => exact .failure q h
  | fault f f' => exact .fault f f'
  | unfinished => exact .unfinished

theorem check {related : β → β' → Prop} {request : Except Fault β} {request' : Except Fault β'}
    {next : β → Reply ε α} {next' : β' → Reply ε' α'} (h : RequestsMirror related request request')
    (hnext : ∀ b b', related b b' → (next b).Mirrors k fails yields (next' b')) :
    (Reply.check request next).Mirrors k fails yields (Reply.check request' next') := by
  cases h with
  | ok h => exact hnext _ _ h
  | error f f' => exact .fault f f'

theorem map {yields' : β → β' → Prop} {view : α → β} {view' : α' → β'}
    (h : r.Mirrors k fails yields r') (hview : ∀ v v', yields v v' → yields' (view v) (view' v')) :
    (r.map view).Mirrors k fails yields' (r'.map view') := by
  cases h with
  | success q h => exact .success q (hview _ _ h)
  | failure q h => exact .failure q h
  | fault f f' => exact .fault f f'
  | unfinished => exact .unfinished

theorem restoring {src src' : Source} (hsrc : src.Tail src' k) (entry : Nat)
    (h : r.Mirrors k fails yields r') :
    (Reply.restoring src (entry + k) r).Mirrors k fails yields
      (Reply.restoring src' entry r') := by
  cases h with
  | success q h => exact .success q h
  | failure q h =>
      refine check (hsrc.seek_mirrors entry) ?_
      rintro _ p rfl
      exact .failure p h
  | fault f f' => exact .fault f f'
  | unfinished => exact .unfinished

/-- Replies that mirror each other under one path, `0` places apart, are the same, unless
they are faults. -/
theorem eq_of_zero {path : Path} {r r' : Reply Diagnosis Node}
    (h : r.Mirrors 0 (Diagnosis.Mirrors 0 path path) (fun n n' => n = n'.shift 0) r')
    (hr : ∀ f, r ≠ .fault f) : r = r' := by
  cases h with
  | success q h => rw [h, Node.shift_zero, Nat.add_zero]
  | failure q h => rw [h.eq_shift, Diagnosis.shift_zero, Nat.add_zero]
  | fault f f' => exact absurd rfl (hr f)
  | unfinished => rfl

end Reply.Mirrors

/-! ## Recognizers -/

/-- What mirrors what where a node is recognized. -/
abbrev NodesMirror (k : Nat) (path path' : Path) (r r' : Reply Diagnosis Node) : Prop :=
  r.Mirrors k (Diagnosis.Mirrors k path path') (fun n n' => n = n'.shift k) r'

/-- What mirrors what where a forest is recognized. -/
abbrev ForestsMirror (k : Nat) (path path' : Path) (r r' : Reply GroupDiagnosis Forest) : Prop :=
  r.Mirrors k (GroupDiagnosis.Mirrors k path path') (fun f f' => f = f'.shift k) r'

/-- Under any two paths that name the same symbol the recognizers come to the same. -/
def NodeRecognizer.Mirrors (k : Nat) (r r' : NodeRecognizer) : Prop :=
  ∀ path path' p, path.symbol = path'.symbol →
    NodesMirror k path path' (r path (p + k)) (r' path' p)

/-- Under any two paths the recognizers come to the same. -/
def ForestRecognizer.Mirrors (k : Nat) (r r' : ForestRecognizer) : Prop :=
  ∀ path path' p, ForestsMirror k path path' (r path (p + k)) (r' path' p)

/-- Members that come to the same, and of which both are optional or neither is. -/
structure Member.Mirrors (k : Nat) (m m' : Member) : Prop where
  optional : m.optional = m'.optional
  recognizer : ForestRecognizer.Mirrors k m.recognizer m'.recognizer

variable {k : Nat} {src src' : Source}

theorem NodesMirror.toForest {path path' : Path} {symbol : String} {r r' : Reply Diagnosis Node}
    (h : NodesMirror k (path.child symbol) (path'.child symbol) r r') :
    ForestsMirror k path path' r.toForest r'.toForest := by
  cases h with
  | @success n n' q h =>
      obtain rfl := h
      exact .success q (Forest.single_shift k n')
  | failure q h => exact .failure q ⟨rfl, h.of_child⟩
  | fault f f' => exact .fault f f'
  | unfinished => exact .unfinished

/-! ## Sequences and choices -/

theorem sequenceFrom_mirrors {es es' : List ForestRecognizer}
    (h : es.Forall₂ (ForestRecognizer.Mirrors k) es') (path path' : Path) :
    ∀ index p, ForestsMirror k path path' (sequenceFrom index es path (p + k))
      (sequenceFrom index es' path' p) := by
  induction h with
  | nil =>
      intro index p
      exact .success p rfl
  | @cons e e' es es' he _ ih =>
      intro index p
      simp only [sequenceFrom]
      rcases (he path path' p).outcomes with
        ⟨f, f', q, hr, hr', rfl⟩ | ⟨d, d', q, hr, hr', hd⟩ | ⟨f, f', hr, hr'⟩ | ⟨hr, hr'⟩ <;>
        rw [hr, hr']
      · refine (ih (index + 1) q).map ?_
        rintro _ g rfl
        rw [Forest.shift, Forest.shift, ← List.map_append, Forest.ofNodes_shift]
      · simp only [hd.count]
        exact .failure q (hd.withCount _)
      · exact .fault f f'
      · exact .unfinished

theorem sequence_mirrors (hsrc : src.Tail src' k) {es es' : List ForestRecognizer}
    (h : es.Forall₂ (ForestRecognizer.Mirrors k) es') :
    ForestRecognizer.Mirrors k (sequence src es) (sequence src' es') := by
  intro path path' p
  exact (sequenceFrom_mirrors h path path' 0 p).restoring hsrc p

theorem furthest_mirrors {path path' : Path} {sofar sofar' : Option GroupDiagnosis}
    {d d' : GroupDiagnosis} (hsofar : Option.Rel (GroupDiagnosis.Mirrors k path path') sofar sofar')
    (hd : d.Mirrors k path path' d') :
    (furthest sofar d).Mirrors k path path' (furthest sofar' d') := by
  cases hsofar with
  | none => exact hd
  | some hbest =>
      simp only [furthest, hbest.count, hd.count]
      split
      · exact hd
      · exact hbest

theorem choiceAfter_mirrors {es es' : List ForestRecognizer}
    (h : es.Forall₂ (ForestRecognizer.Mirrors k) es') (path path' : Path) :
    ∀ sofar sofar', Option.Rel (GroupDiagnosis.Mirrors k path path') sofar sofar' →
      ∀ p, ForestsMirror k path path' (choiceAfter sofar es path (p + k))
        (choiceAfter sofar' es' path' p) := by
  induction h with
  | nil =>
      intro sofar sofar' hsofar p
      cases hsofar with
      | none => exact .failure p ⟨rfl, .here path path' p⟩
      | some hbest => exact .failure p (hbest.withCount 0)
  | @cons e e' es es' he _ ih =>
      intro sofar sofar' hsofar p
      simp only [choiceAfter]
      rcases (he path path' p).outcomes with
        ⟨f, f', q, hr, hr', rfl⟩ | ⟨d, d', q, hr, hr', hd⟩ | ⟨f, f', hr, hr'⟩ | ⟨hr, hr'⟩ <;>
        rw [hr, hr']
      · exact .success q rfl
      · simp only [hd.cause.isIncomplete_eq]
        split
        · exact .failure q hd
        · exact ih _ _ (.some (furthest_mirrors hsofar hd)) q
      · exact .fault f f'
      · exact .unfinished

theorem choice_mirrors {es es' : List ForestRecognizer}
    (h : es.Forall₂ (ForestRecognizer.Mirrors k) es') :
    ForestRecognizer.Mirrors k (choice es) (choice es') := by
  intro path path' p
  exact choiceAfter_mirrors h path path' none none .none p

/-! ## Sets -/

/-- What mirrors what where orders of members are explored. -/
abbrev CandidatesMirror (k : Nat) (path path' : Path) (r r' : Reply GroupDiagnosis Candidate) :
    Prop :=
  r.Mirrors k (GroupDiagnosis.Mirrors k path path') (fun c c' => c = c'.shift k) r'

namespace Quorum

variable (total required : Nat)

theorem standing_mirrors (src src' : Source) {ms ms' : List Member}
    (h : ms.Forall₂ (Member.Mirrors k) ms') (taken p : Nat) :
    standing ⟨src, total, required⟩ ms taken (p + k) =
      (standing ⟨src', total, required⟩ ms' taken p).shift k := by
  simp only [standing, count_optional_eq (fun _ _ hm => hm.optional) h]
  rfl

theorem explore_mirrors (hsrc : src.Tail src' k) {path path' : Path}
    {search search' : List Member → Nat → Nat → Reply GroupDiagnosis Candidate}
    (hsearch : ∀ ms ms' : List Member, ms.Forall₂ (Member.Mirrors k) ms' → ∀ taken p,
      CandidatesMirror k path path' (search ms taken (p + k)) (search' ms' taken p))
    (start taken : Nat) {ms ms' : List Member} (h : ms.Forall₂ (Member.Mirrors k) ms') :
    ∀ tried tried' : List Member, tried.Forall₂ (Member.Mirrors k) tried' → ∀ best p,
      CandidatesMirror k path path'
        (explore ⟨src, total, required⟩ search path (start + k) taken tried ms
          (Candidate.shift k best) (p + k))
        (explore ⟨src', total, required⟩ search' path' start taken tried' ms' best p) := by
  induction h with
  | nil =>
      intro tried tried' _ best p
      exact .success p rfl
  | @cons m m' ms ms' hm hms ih =>
      intro tried tried' htried best p
      have next := ih (m :: tried) (m' :: tried') (.cons hm htried)
      simp only [explore]
      rcases (hm.recognizer path path' p).outcomes with
        ⟨f, f', q, hr, hr', rfl⟩ | ⟨d, d', q, hr, hr', hd⟩ | ⟨f, f', hr, hr'⟩ | ⟨hr, hr'⟩ <;>
        rw [hr, hr']
      · simp only [Nat.add_lt_add_iff_right]
        split
        · have hrest := hsearch _ _
            (List.rel_append (List.forall₂_reverse_iff.mpr htried) hms) (taken + 1) q
          rcases hrest.outcomes with
            ⟨c, c', t, hc, hc', rfl⟩ | ⟨d, d', t, hc, hc', hd⟩ | ⟨f, f', hc, hc'⟩ | ⟨hc, hc'⟩ <;>
            rw [hc, hc']
          · refine .check (hsrc.seek_mirrors start) ?_
            rintro _ p rfl
            simp only [Candidate.beats_shift, Candidate.after_shift]
            split
            · have htaken : (c'.shift k).taken = c'.taken := rfl
              simp only [htaken]
              split
              · exact .success p rfl
              · exact next _ p
            · exact next best p
          · refine .check (hsrc.seek_mirrors start) ?_
            rintro _ p rfl
            exact .failure p hd
          · exact .fault f f'
          · exact .unfinished
        · exact next best q
      · simp only [hd.cause.isIncomplete_eq]
        split
        · rw [hd.count]
          exact .failure q (hd.withCount _)
        · exact next best q
      · exact .fault f f'
      · exact .unfinished

theorem search_mirrors (hsrc : src.Tail src' k) (path path' : Path) (n : Nat) :
    ∀ ms ms' : List Member, ms.Forall₂ (Member.Mirrors k) ms' → ∀ taken p,
      CandidatesMirror k path path'
        (search ⟨src, total, required⟩ path n ms taken (p + k))
        (search ⟨src', total, required⟩ path' n ms' taken p) := by
  induction n with
  | zero =>
      intro ms ms' h taken p
      exact .success p (standing_mirrors total required src src' h taken p)
  | succ n ih =>
      intro ms ms' h taken p
      simp only [search]
      rw [standing_mirrors total required src src' h]
      exact explore_mirrors total required hsrc ih p taken h [] [] .nil _ p

theorem settle_mirrors (hsrc : src.Tail src' k) (path path' : Path) (entry : Nat)
    (best : Candidate) (p : Nat) :
    ForestsMirror k path path'
      (settle ⟨src, total, required⟩ path (entry + k) (best.shift k) (p + k))
      (settle ⟨src', total, required⟩ path' entry best p) := by
  obtain ⟨satisfied, taken, stop, nodes⟩ := best
  cases satisfied with
  | true =>
      refine .check (hsrc.seek_mirrors stop) ?_
      rintro _ q rfl
      cases taken with
      | zero => exact .success q rfl
      | succ taken => exact .success q (Forest.ofNodes_shift k nodes)
  | false =>
      cases taken with
      | zero => exact .failure p ⟨rfl, .here path path' entry⟩
      | succ taken =>
          refine .check (distance_mirrors k entry stop) ?_
          rintro length _ rfl
          exact .failure p ⟨rfl, .partway path path' entry length⟩

end Quorum

theorem anyOrder_mirrors (hsrc : src.Tail src' k) (required : Nat) {ms ms' : List Member}
    (h : ms.Forall₂ (Member.Mirrors k) ms') :
    ForestRecognizer.Mirrors k (anyOrder src ms required) (anyOrder src' ms' required) := by
  intro path path' p
  simp only [anyOrder, h.length_eq]
  refine Reply.Mirrors.restoring hsrc p ?_
  refine (Quorum.search_mirrors _ _ hsrc path path' _ ms ms' h 0 p).bind ?_
  rintro _ best q rfl
  exact Quorum.settle_mirrors _ _ hsrc path path' p best q

/-! ## Repetition -/

/-- Runs that ended for one reason. -/
inductive RunEnd.Mirrors (k : Nat) (path path' : Path) : RunEnd → RunEnd → Prop where
  | full : RunEnd.Mirrors k path path' .full .full
  | idle : RunEnd.Mirrors k path path' .idle .idle
  | stopped {d d' : GroupDiagnosis} (h : d.Mirrors k path path' d') :
      RunEnd.Mirrors k path path' (.stopped d) (.stopped d')

/-- Runs of as many occurrences, with the nodes of the first moved along. -/
inductive Run.Mirrors (k : Nat) (path path' : Path) : Run → Run → Prop where
  | mk (nodes : List Node) (occurrences : Nat) {ending ending' : RunEnd}
      (h : ending.Mirrors k path path' ending') :
      Run.Mirrors k path path' ⟨nodes.map (Node.shift k), occurrences, ending⟩
        ⟨nodes, occurrences, ending'⟩

namespace Cardinality

theorem runFrom_mirrors (c : Cardinality) {path path' : Path}
    {occ occ' : Nat → Nat → Reply GroupDiagnosis Forest}
    (hocc : ∀ done p, ForestsMirror k path path' (occ done (p + k)) (occ' done p)) (bound : Nat) :
    ∀ done p, (c.runFrom occ bound done (p + k)).Mirrors k (fun _ _ => False)
      (Run.Mirrors k path path') (c.runFrom occ' bound done p) := by
  induction bound with
  | zero =>
      intro done p
      rw [runFrom, runFrom]
      split
      · exact .success p (.mk [] done .full)
      · exact .unfinished
  | succ bound ih =>
      intro done p
      rw [runFrom, runFrom]
      split
      · exact .success p (.mk [] done .full)
      · rcases (hocc done p).outcomes with
          ⟨f, f', q, hr, hr', rfl⟩ | ⟨d, d', q, hr, hr', hd⟩ | ⟨f, f', hr, hr'⟩ | ⟨hr, hr'⟩ <;>
          simp only [hr, hr']
        · simp only [Nat.add_right_cancel_iff]
          split
          · exact .success q (.mk f'.nodes (done + 1) .idle)
          · refine (ih (done + 1) q).map ?_
            rintro _ _ ⟨nodes, occurrences, h⟩
            simp only [Run.after, Forest.shift, ← List.map_append]
            exact .mk _ occurrences h
        · exact .success q (.mk [] done (.stopped hd))
        · exact .fault f f'
        · exact .unfinished

theorem accept_mirrors (c : Cardinality) {path path' : Path} {run run' : Run}
    (h : run.Mirrors k path path' run') (p : Nat) :
    ForestsMirror k path path' (c.accept run (p + k)) (c.accept run' p) := by
  obtain ⟨nodes, occurrences, hending⟩ := h
  have hforest : (if occurrences = 0 then Forest.optionalEmpty
      else .ofNodes (nodes.map (Node.shift k))) =
        Forest.shift k (if occurrences = 0 then .optionalEmpty else .ofNodes nodes) := by
    split
    · rfl
    · exact Forest.ofNodes_shift k nodes
  cases hending <;> simp only [accept, hforest] <;> split <;>
    first | exact .success p rfl | exact .fault _ _

theorem judge_mirrors (c : Cardinality) {path path' : Path} {run run' : Run}
    (h : run.Mirrors k path path' run') (p : Nat) :
    ForestsMirror k path path' (c.judge run (p + k)) (c.judge run' p) := by
  have haccept := c.accept_mirrors h p
  obtain ⟨nodes, occurrences, hending⟩ := h
  cases hending with
  | full => exact haccept
  | idle => exact haccept
  | stopped hd =>
      simp only [judge, hd.cause.isIncomplete_eq, hd.count]
      split
      · exact .failure p (hd.withCount _)
      · exact haccept

theorem repeating_mirrors (c : Cardinality) (hsrc : src.Tail src' k) (bound : Nat)
    {r r' : ForestRecognizer} (h : ForestRecognizer.Mirrors k r r') :
    ForestRecognizer.Mirrors k (c.repeating src bound fun _ => r)
      (c.repeating src' bound fun _ => r') := by
  intro path path' p
  refine Reply.Mirrors.restoring hsrc p ?_
  rcases (c.runFrom_mirrors (fun _ q => h path path' q) bound 0 p).outcomes with
    ⟨run, run', q, hr, hr', hrun⟩ | ⟨e, e', q, hr, hr', he⟩ | ⟨f, f', hr, hr'⟩ | ⟨hr, hr'⟩
  · simp only [hr, hr']
    exact c.judge_mirrors hrun q
  · exact he.elim
  · simp only [hr, hr']
    exact .fault f f'
  · simp only [hr, hr']
    exact .unfinished

end Cardinality

/-! ## Groups -/

theorem Aggregation.recognizer_mirrors (a : Aggregation) (hsrc : src.Tail src' k)
    {ms ms' : List Member} (h : ms.Forall₂ (Member.Mirrors k) ms') :
    ForestRecognizer.Mirrors k (a.recognizer src ms) (a.recognizer src' ms') := by
  have hmap : (ms.map Member.recognizer).Forall₂ (ForestRecognizer.Mirrors k)
      (ms'.map Member.recognizer) :=
    List.forall₂_map_left_iff.mpr
      (List.forall₂_map_right_iff.mpr (h.imp fun _ _ hm => hm.recognizer))
  cases a with
  | sequence => exact sequence_mirrors hsrc hmap
  | choice => exact choice_mirrors hmap
  | set minimum =>
      simp only [Aggregation.recognizer, h.length_eq]
      exact anyOrder_mirrors hsrc _ h

end ConcreteSyntax
