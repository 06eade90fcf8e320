import ConcreteSyntax.Proofs.Orderly

/-!
# Orders of the members of a set

A set is recognized by an order of some of its members: each of them reads
something, from where the one before ended. The search for the best order only
ever holds candidates that come of such an order, it is back where it started
when it ends, and it ends early only for a member that committed tokens.
-/

namespace ConcreteSyntax

/-- Members taken one after the other, each of which reads something, from a
position to the last one's end, with the nodes of all. -/
inductive Taken (path : Path) : List Member → Nat → List Node → Nat → Prop where
  | nil (p : Nat) : Taken path [] p [] p
  | cons {m : Member} {rest : List Member} {p q r : Nat} {f : Forest} {ns : List Node}
      (first : m.recognizer path p = .success f q) (reads : p < q)
      (others : Taken path rest q ns r) : Taken path (m :: rest) p (f.nodes ++ ns) r

namespace Taken

variable {path : Path} {src : Source}

theorem bounds {order : List Member} {p q : Nat} {ns : List Node} (h : Taken path order p ns q)
    (horder : ∀ m ∈ order, ForestRecognizer.Orderly src m.recognizer) (hp : p ≤ src.size) :
    p ≤ q ∧ q ≤ src.size ∧ ∀ n ∈ ns, n.Within p q := by
  induction h with
  | nil p => exact ⟨Nat.le_refl p, hp, fun _ h => absurd h List.not_mem_nil⟩
  | cons first _ _ ih =>
      obtain ⟨h₁, h₂, h₃⟩ := (horder _ List.mem_cons_self path _ hp).advances _ _ first
      obtain ⟨h₄, h₅, h₆⟩ := ih (fun m hm => horder m (List.mem_cons_of_mem _ hm)) h₂
      exact ⟨Nat.le_trans h₁ h₄, h₅, within_append h₁ h₄ h₃ h₆⟩

theorem le {order : List Member} {p q : Nat} {ns : List Node} (h : Taken path order p ns q) :
    p ≤ q := by
  induction h with
  | nil p => exact Nat.le_refl p
  | cons _ reads _ ih => exact Nat.le_trans (Nat.le_of_lt reads) ih

/-- An order that reads nothing has no members. -/
theorem eq_nil {order : List Member} {p : Nat} {ns : List Node} (h : Taken path order p ns p) :
    order = [] := by
  cases h with
  | nil => rfl
  | cons _ reads others => exact absurd others.le (Nat.not_le_of_lt reads)

theorem nodes_eq_nil {p q : Nat} {ns : List Node} (h : Taken path [] p ns q) : ns = [] := by
  cases h
  rfl

end Taken

namespace Quorum

variable {s : Quorum} {path : Path}

/-- The candidate comes of an order of some of the members, `taken` having been
taken before. -/
def Ordered (s : Quorum) (path : Path) (members : List Member) (taken p : Nat)
    (c : Candidate) : Prop :=
  ∃ order rest : List Member, (order ++ rest).Perm members ∧ Taken path order p c.nodes c.stop ∧
    c.taken = taken + order.length ∧
    c.satisfied = decide (s.required ≤ c.taken + (rest.filter Member.optional).length)

/-- What a search entered at `p` may answer. -/
structure Explores (s : Quorum) (path : Path) (members : List Member) (taken p : Nat)
    (r : Reply GroupDiagnosis Candidate) : Prop where
  ordered : ∀ c q, r = .success c q → s.Ordered path members taken p c ∧ q = p
  committed : ∀ d q, r = .failure d q → d.cause.isIncomplete = true ∧ q = p
  answers : ∀ f, r ≠ .fault f
  finishes : r = .unfinished → ∃ m ∈ members, ∃ q, p ≤ q ∧ q ≤ s.source.size ∧
    m.recognizer path q = .unfinished

namespace Explores

variable {members : List Member} {taken p : Nat}

theorem success {c : Candidate} (h : s.Ordered path members taken p c) :
    s.Explores path members taken p (.success c p) where
  ordered := by
    rintro _ _ ⟨⟩
    exact ⟨h, rfl⟩
  committed := by simp
  answers := by simp
  finishes := by simp

theorem failure {d : GroupDiagnosis} (h : d.cause.isIncomplete = true) :
    s.Explores path members taken p (.failure d p) where
  ordered := by simp
  committed := by
    rintro _ _ ⟨⟩
    exact ⟨h, rfl⟩
  answers := by simp
  finishes := by simp

theorem unfinished {m : Member} {q : Nat} (hm : m ∈ members) (hpq : p ≤ q)
    (hq : q ≤ s.source.size) (h : m.recognizer path q = .unfinished) :
    s.Explores path members taken p .unfinished where
  ordered := by simp
  committed := by simp
  answers := by simp
  finishes := fun _ => ⟨m, hm, q, hpq, hq, h⟩

end Explores

theorem standing_ordered (s : Quorum) (path : Path) (members : List Member) (taken p : Nat) :
    s.Ordered path members taken p (s.standing members taken p) :=
  ⟨[], members, .refl _, .nil p, rfl, rfl⟩

/-- A member is put before an order of the others. -/
theorem Ordered.after {m : Member} {before behind : List Member} {taken p q : Nat} {f : Forest}
    {c : Candidate} (h : s.Ordered path (before ++ behind) (taken + 1) q c)
    (first : m.recognizer path p = .success f q) (reads : p < q) :
    s.Ordered path (before ++ m :: behind) taken p (c.after f) := by
  obtain ⟨order, rest, hperm, htaken, hcount, hsatisfied⟩ := h
  refine ⟨m :: order, rest, ?_, .cons first reads htaken, ?_, hsatisfied⟩
  · exact (hperm.cons m).trans List.perm_middle.symm
  · rw [List.length_cons]
    simp only [Candidate.after]
    omega

/-- One round over the members to be tried next, `tried` having been tried. -/
theorem explore_explores
    {search : List Member → Nat → Nat → Reply GroupDiagnosis Candidate} {start taken : Nat}
    (hstart : start ≤ s.source.size)
    (hsearch : ∀ members q, (∀ m ∈ members, ForestRecognizer.Orderly s.source m.recognizer) →
      start < q → q ≤ s.source.size →
      s.Explores path members (taken + 1) q (search members (taken + 1) q)) :
    ∀ (members tried : List Member) (best : Candidate),
      (∀ m ∈ tried.reverse ++ members, ForestRecognizer.Orderly s.source m.recognizer) →
      s.Ordered path (tried.reverse ++ members) taken start best →
      s.Explores path (tried.reverse ++ members) taken start
        (s.explore search path start taken tried members best start) := by
  intro members
  induction members with
  | nil =>
      intro tried best _ hbest
      rw [explore]
      exact .success hbest
  | cons m rest ih =>
      intro tried best horderly hbest
      have hmoved : tried.reverse ++ m :: rest = (m :: tried).reverse ++ rest := by simp
      have hsub : tried.reverse ++ rest ⊆ tried.reverse ++ m :: rest :=
        ((List.sublist_cons_self m rest).append_left _).subset
      -- the rounds over the other members, with whatever is best so far
      have next (best : Candidate)
          (hbest : s.Ordered path (tried.reverse ++ m :: rest) taken start best) :
          s.Explores path (tried.reverse ++ m :: rest) taken start
            (s.explore search path start taken (m :: tried) rest best start) := by
        rw [hmoved] at hbest horderly ⊢
        exact ih (m :: tried) best horderly hbest
      have hm := horderly m (by simp) path start hstart
      rw [explore]
      cases hrun : m.recognizer path start with
      | success f q =>
          obtain ⟨hq, hqs, -⟩ := hm.advances f q hrun
          by_cases hreads : start < q
          · simp only [hreads, if_true]
            have hs := hsearch _ q (fun m' hm' => horderly m' (hsub hm')) hreads hqs
            cases hfound : search (tried.reverse ++ rest) (taken + 1) q with
            | success c q' =>
                obtain ⟨hc, -⟩ := hs.ordered c q' hfound
                have hafter := hc.after hrun hreads
                simp only [Source.seek_of_le hstart, Reply.check_ok]
                by_cases hbeats : c.beats best
                · by_cases hall : c.taken = s.total
                  · simp only [hbeats, hall, if_true]
                    exact .success hafter
                  · simpa only [hbeats, hall, if_true, if_false] using next _ hafter
                · simpa only [hbeats, if_false, Bool.false_eq_true] using next _ hbest
            | failure d q' =>
                simp only [Source.seek_of_le hstart, Reply.check_ok]
                exact .failure (hs.committed d q' hfound).1
            | fault f' => exact absurd hfound (hs.answers f')
            | unfinished =>
                obtain ⟨m', hm', q', hqq', hq's, hun⟩ := hs.finishes hfound
                exact .unfinished (hsub hm') (Nat.le_trans hq hqq') hq's hun
          · obtain rfl : q = start := by omega
            simpa only [hreads, if_false] using next _ hbest
      | failure d q =>
          obtain rfl := hm.returns d q hrun
          by_cases hd : d.cause.isIncomplete
          · simp only [hd, if_true]
            exact .failure hd
          · simpa only [hd, if_false, Bool.false_eq_true] using next _ hbest
      | fault f => exact absurd hrun (hm.answers f)
      | unfinished =>
          exact .unfinished (by simp) (Nat.le_refl _) hstart hrun

/-- **Searches.** Every candidate comes of an order of the members not yet
taken. -/
theorem search_explores (n : Nat) : ∀ (members : List Member) (taken p : Nat),
    (∀ m ∈ members, ForestRecognizer.Orderly s.source m.recognizer) → p ≤ s.source.size →
    s.Explores path members taken p (s.search path n members taken p) := by
  induction n with
  | zero =>
      intro members taken p _ _
      rw [search]
      exact .success (s.standing_ordered path members taken p)
  | succ n ih =>
      intro members taken p horderly hp
      rw [search]
      exact explore_explores hp (fun ms q hms _ hq => ih ms (taken + 1) q hms hq) members [] _
        horderly (s.standing_ordered path members taken p)

end Quorum

section

variable {src : Source} {members : List Member} {required p : Nat} {path : Path}

/-- **Sets.** A set is recognized by an order that satisfies it, or it fails and
the cursor returns; else some member is not finished. -/
theorem anyOrder_cases (required : Nat) (path : Path)
    (horderly : ∀ m ∈ members, ForestRecognizer.Orderly src m.recognizer) (hp : p ≤ src.size) :
    (∃ order rest ns q, (order ++ rest).Perm members ∧ Taken path order p ns q ∧
        required ≤ order.length + (rest.filter Member.optional).length ∧
        anyOrder src members required path p = .success ⟨ns, order.length == 0⟩ q) ∨
      (∃ d, anyOrder src members required path p = .failure d p) ∨
      anyOrder src members required path p = .unfinished ∧
        ∃ m ∈ members, ∃ q, p ≤ q ∧ q ≤ src.size ∧ m.recognizer path q = .unfinished := by
  have hs := @Quorum.search_explores ⟨src, members.length, required⟩ path
    members.length members 0 p horderly hp
  simp only [anyOrder]
  cases hfound : Quorum.search ⟨src, members.length, required⟩ path members.length members 0 p with
  | success c q =>
      obtain ⟨⟨order, rest, hperm, htaken, hcount, hsatisfied⟩, rfl⟩ := hs.ordered c q hfound
      have horder : ∀ m ∈ order, ForestRecognizer.Orderly src m.recognizer :=
        fun m hm => horderly m (hperm.subset (List.mem_append_left _ hm))
      obtain ⟨hle, hstop, -⟩ := htaken.bounds horder hp
      simp only [Reply.bind_success, Quorum.settle, Source.seek_of_le hstop, Reply.check_ok,
        distance_of_le hle]
      cases hsat : c.satisfied with
      | true =>
          rw [hsat] at hsatisfied
          have henough := of_decide_eq_true hsatisfied.symm
          refine Or.inl ⟨order, rest, c.nodes, c.stop, hperm, htaken, ?_, ?_⟩
          · rwa [hcount, Nat.zero_add] at henough
          · by_cases hzero : c.taken = 0
            · obtain rfl : order = [] := List.length_eq_zero_iff.mp (by omega)
              simp [hzero, htaken.nodes_eq_nil, Forest.optionalEmpty, Reply.restoring]
            · have hne : order.length ≠ 0 := by omega
              simp [hzero, hne, Forest.ofNodes, Reply.restoring]
      | false =>
          refine Or.inr (Or.inl ?_)
          by_cases hzero : c.taken = 0 <;> simp [hzero, Reply.restoring, Source.seek_of_le hp]
  | failure d q =>
      refine Or.inr (Or.inl ⟨d, ?_⟩)
      simp [Reply.restoring, Source.seek_of_le hp]
  | fault f => exact absurd hfound (hs.answers f)
  | unfinished => exact Or.inr (Or.inr ⟨rfl, hs.finishes hfound⟩)

theorem anyOrder_success {f : Forest} {q : Nat}
    (horderly : ∀ m ∈ members, ForestRecognizer.Orderly src m.recognizer) (hp : p ≤ src.size)
    (h : anyOrder src members required path p = .success f q) :
    ∃ order rest, (order ++ rest).Perm members ∧ Taken path order p f.nodes q ∧
      required ≤ order.length + (rest.filter Member.optional).length := by
  rcases anyOrder_cases required path horderly hp with
    ⟨order, rest, ns, m, hperm, htaken, henough, hr⟩ | ⟨d, hr⟩ | ⟨hr, -⟩ <;> rw [hr] at h
  · rw [Reply.success.injEq] at h
    obtain ⟨rfl, rfl⟩ := h
    exact ⟨order, rest, hperm, htaken, henough⟩
  · cases h
  · cases h

theorem anyOrder_orderly (required : Nat)
    (horderly : ∀ m ∈ members, ForestRecognizer.Orderly src m.recognizer) :
    ForestRecognizer.Orderly src (anyOrder src members required) := by
  intro path p hp
  rcases anyOrder_cases required path horderly hp with
    ⟨order, rest, ns, q, hperm, htaken, -, h⟩ | ⟨d, h⟩ | ⟨h, -⟩ <;> rw [h]
  · obtain ⟨h₁, h₂, h₃⟩ := htaken.bounds
      (fun m hm => horderly m (hperm.subset (List.mem_append_left _ hm))) hp
    exact .success h₁ h₂ h₃
  · exact .failure d
  · exact .unfinished

end

end ConcreteSyntax
