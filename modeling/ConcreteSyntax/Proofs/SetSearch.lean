import ConcreteSyntax.Proofs.SetOrders
import Mathlib.Data.Prod.Lex
import Mathlib.Order.BoundedOrder.Basic

/-!
# The search for the best order

The search of a set ends early in two cases only: a member that committed tokens
ends it at once, and so does an order that takes every member. In all others it
has tried every order there is, and no order is preferred to the one it found. An
order that takes every member leaves nothing to be preferred but where it stops,
so this is all that an early end can get wrong.
-/

namespace ConcreteSyntax

namespace Candidate

/-- What a preference compares, the most important first. -/
def key (c : Candidate) : Bool ×ₗ Nat ×ₗ Nat := toLex (c.satisfied, toLex (c.taken, c.stop))

/-- What a search settles: of a candidate that takes all `total` members it is left
open where it stops. -/
def rank (total : Nat) (c : Candidate) : Bool ×ₗ Nat ×ₗ Nat :=
  toLex (c.satisfied, toLex (c.taken, if c.taken = total then 0 else c.stop))

variable {c d : Candidate} {total : Nat}

theorem beats_iff : c.beats d = true ↔ d.key < c.key := by
  simp only [beats, key, Prod.Lex.toLex_lt_toLex]
  cases hc : c.satisfied <;> cases hd : d.satisfied <;> by_cases h : c.taken = d.taken <;>
    simp [h, eq_comm (a := d.taken) (b := c.taken)]

theorem rank_le_rank_iff : c.rank total ≤ d.rank total ↔
    c.satisfied < d.satisfied ∨ c.satisfied = d.satisfied ∧ (c.taken < d.taken ∨
      c.taken = d.taken ∧ (c.taken ≠ total → c.stop ≤ d.stop)) := by
  simp only [rank, Prod.Lex.toLex_le_toLex]
  by_cases h : c.taken = d.taken
  · by_cases ht : d.taken = total <;> simp [h, ht]
  · simp [h]

/-- The rank follows the key. -/
theorem rank_mono (h : c.key ≤ d.key) : c.rank total ≤ d.rank total := by
  rw [rank_le_rank_iff]
  simp only [key, Prod.Lex.toLex_le_toLex] at h
  exact h.imp_right (And.imp_right (Or.imp_right (And.imp_right fun hstop _ => hstop)))

theorem rank_le_of_not_beats (h : c.beats d = false) : c.rank total ≤ d.rank total := by
  have hkey : ¬ d.key < c.key := by
    rw [← beats_iff, h]
    exact Bool.false_ne_true
  exact rank_mono (not_lt.mp hkey)

theorem rank_le_of_beats (h : c.beats d = true) : d.rank total ≤ c.rank total :=
  rank_mono (le_of_lt (beats_iff.mp h))

@[simp] theorem rank_after (f : Forest) : (c.after f).rank total = c.rank total := rfl

end Candidate

namespace Quorum

variable {s : Quorum} {path : Path} {members : List Member} {taken p : Nat} {c d : Candidate}

/-! ## Orders by their first member -/

/-- The candidate comes of an order that takes `m` first and some of the others
then. -/
def Begins (s : Quorum) (path : Path) (m : Member) (others : List Member) (taken p : Nat)
    (c : Candidate) : Prop :=
  ∃ f q d, m.recognizer path p = .success f q ∧ p < q ∧
    s.Ordered path others (taken + 1) q d ∧ c = d.after f

/-- An order takes no member, or one of them first. -/
theorem Ordered.begins (h : s.Ordered path members taken p c) :
    c = s.standing members taken p ∨
      ∃ before m behind, members = before ++ m :: behind ∧
        s.Begins path m (before ++ behind) taken p c := by
  obtain ⟨satisfied, count, stop, nodes⟩ := c
  obtain ⟨order, rest, hperm, htaken, hcount, hsatisfied⟩ := h
  simp only at htaken hcount hsatisfied
  cases htaken with
  | nil p =>
      refine Or.inl ?_
      rw [List.nil_append] at hperm
      rw [hcount, (hperm.filter _).length_eq] at hsatisfied
      rw [hsatisfied, hcount]
      rfl
  | @cons m order p q r f ns first reads others =>
      refine Or.inr ?_
      have hmem : m ∈ members := hperm.subset List.mem_cons_self
      obtain ⟨before, behind, rfl⟩ := List.mem_iff_append.mp hmem
      have hothers : (order ++ rest).Perm (before ++ behind) :=
        (hperm.trans List.perm_middle).cons_inv
      refine ⟨before, m, behind, rfl, f, q, ⟨satisfied, count, stop, ns⟩, first, reads, ?_, rfl⟩
      refine ⟨order, rest, hothers, others, ?_, hsatisfied⟩
      rw [List.length_cons] at hcount
      simp only
      omega

theorem Ordered.taken_le (h : s.Ordered path members taken p c) :
    c.taken ≤ taken + members.length := by
  obtain ⟨order, rest, hperm, -, hcount, -⟩ := h
  have hlength := hperm.length_eq
  rw [List.length_append] at hlength
  omega

/-- An order that takes every member is enough. -/
theorem Ordered.satisfied_of_all (hrequired : s.required ≤ s.total)
    (hc : s.Ordered path members taken p c) (hall : c.taken = s.total) : c.satisfied = true := by
  obtain ⟨-, rest, -, -, -, hsatisfied⟩ := hc
  rw [hsatisfied, decide_eq_true_eq]
  omega

/-- Nothing is preferred to an order that takes every member, but one that stops
elsewhere. -/
theorem Ordered.rank_le_of_all (hrequired : s.required ≤ s.total)
    (hc : s.Ordered path members taken p c) (hall : c.taken = s.total)
    (hd : d.taken ≤ s.total) : d.rank s.total ≤ c.rank s.total := by
  rw [Candidate.rank_le_rank_iff, hc.satisfied_of_all hrequired hall, hall]
  rcases Nat.lt_or_eq_of_le hd with hlt | heq
  · cases d.satisfied <;> simp [hlt]
  · cases d.satisfied <;> simp [heq]

/-! ## One member more -/

/-- What trying one member comes to: an order that begins with it is found, the
search behind it ends, the member is passed over, it committed tokens, or there is
no answer. -/
theorem explore_cons (search : List Member → Nat → Nat → Reply GroupDiagnosis Candidate)
    (path : Path) {start : Nat} (taken : Nat) (tried : List Member) {m : Member}
    (rest : List Member) (best : Candidate) (hstart : start ≤ s.source.size)
    (hm : ForestRecognizer.Orderly s.source m.recognizer) :
    (∃ f q c q', m.recognizer path start = .success f q ∧ start < q ∧ q ≤ s.source.size ∧
        search (tried.reverse ++ rest) (taken + 1) q = .success c q' ∧
        s.explore search path start taken tried (m :: rest) best start =
          if c.beats best then
            if c.taken = s.total then .success (c.after f) start
            else s.explore search path start taken (m :: tried) rest (c.after f) start
          else s.explore search path start taken (m :: tried) rest best start) ∨
      (∃ f q d q', m.recognizer path start = .success f q ∧ start < q ∧ q ≤ s.source.size ∧
        search (tried.reverse ++ rest) (taken + 1) q = .failure d q' ∧
        s.explore search path start taken tried (m :: rest) best start = .failure d start) ∨
      ((∀ f q, m.recognizer path start = .success f q → q ≤ start) ∧
        s.explore search path start taken tried (m :: rest) best start =
          s.explore search path start taken (m :: tried) rest best start) ∨
      (∃ d, m.recognizer path start = .failure d start ∧ d.cause.isIncomplete = true ∧
        s.explore search path start taken tried (m :: rest) best start =
          .failure (d.withCount (taken + d.count)) start) ∨
      (∀ c q, s.explore search path start taken tried (m :: rest) best start ≠ .success c q) ∧
        ∀ d q, s.explore search path start taken tried (m :: rest) best start ≠ .failure d q := by
  have horderly := hm path start hstart
  rw [explore]
  cases hrun : m.recognizer path start with
  | success f q =>
      obtain ⟨hq, hsize, -⟩ := horderly.advances f q hrun
      by_cases hreads : start < q
      · simp only [hreads, if_true]
        cases hfound : search (tried.reverse ++ rest) (taken + 1) q with
        | success c q' =>
            refine Or.inl ⟨f, q, c, q', rfl, hreads, hsize, hfound, ?_⟩
            simp only [Source.seek_of_le hstart, Reply.check_ok]
        | failure d q' =>
            refine Or.inr (Or.inl ⟨f, q, d, q', rfl, hreads, hsize, hfound, ?_⟩)
            simp only [Source.seek_of_le hstart, Reply.check_ok]
        | fault f' => simp
        | unfinished => simp
      · obtain rfl : q = start := by omega
        refine Or.inr (Or.inr (Or.inl ⟨?_, by simp⟩))
        rintro f' q' ⟨⟩
        exact Nat.le_refl _
  | failure d q =>
      obtain rfl := horderly.returns d q hrun
      cases hd : d.cause.isIncomplete with
      | true => exact Or.inr (Or.inr (Or.inr (Or.inl ⟨d, rfl, hd, by simp [hd]⟩)))
      | false => exact Or.inr (Or.inr (Or.inl ⟨by simp, by simp [hd]⟩))
  | fault f => exact absurd hrun (horderly.answers f)
  | unfinished => simp

/-! ## What a search finds -/

/-- The candidate comes of an order, and none comes of an order that ranks higher. -/
structure Best (s : Quorum) (path : Path) (members : List Member) (taken p : Nat)
    (c : Candidate) : Prop where
  ordered : s.Ordered path members taken p c
  rank_le : ∀ d, s.Ordered path members taken p d → d.rank s.total ≤ c.rank s.total

/-- The candidate comes of an order that begins with a member still to be tried,
`tried` having been tried. -/
def Pending (s : Quorum) (path : Path) (tried members : List Member) (taken p : Nat)
    (c : Candidate) : Prop :=
  ∃ before m behind, members = before ++ m :: behind ∧
    s.Begins path m (tried.reverse ++ before ++ behind) taken p c

theorem Pending.next {tried rest : List Member} {m : Member}
    (h : s.Pending path tried (m :: rest) taken p c) :
    s.Begins path m (tried.reverse ++ rest) taken p c ∨
      s.Pending path (m :: tried) rest taken p c := by
  obtain ⟨before, m', behind, hsplit, hbegins⟩ := h
  cases before with
  | nil =>
      obtain ⟨rfl, rfl⟩ := List.cons.inj hsplit
      exact Or.inl (by simpa using hbegins)
  | cons m'' before =>
      obtain ⟨rfl, rfl⟩ := List.cons.inj hsplit
      exact Or.inr ⟨before, m', behind, rfl, by simpa using hbegins⟩

/-- One round finds the best candidate if nothing is missed so far: what ranks higher
than `best` begins with a member still to be tried. -/
theorem explore_best (hrequired : s.required ≤ s.total)
    {search : List Member → Nat → Nat → Reply GroupDiagnosis Candidate} {start : Nat}
    (hstart : start ≤ s.source.size)
    (hsearch : ∀ others q c q', (∀ m ∈ others, ForestRecognizer.Orderly s.source m.recognizer) →
      taken + 1 + others.length = s.total → q ≤ s.source.size →
      search others (taken + 1) q = .success c q' → s.Best path others (taken + 1) q c) :
    ∀ (members tried : List Member) (best : Candidate),
      (∀ m ∈ tried.reverse ++ members, ForestRecognizer.Orderly s.source m.recognizer) →
      taken + (tried.reverse ++ members).length = s.total →
      s.Ordered path (tried.reverse ++ members) taken start best →
      (∀ d, s.Ordered path (tried.reverse ++ members) taken start d →
        d.rank s.total ≤ best.rank s.total ∨ s.Pending path tried members taken start d) →
      ∀ c q, s.explore search path start taken tried members best start = .success c q →
        s.Best path (tried.reverse ++ members) taken start c := by
  intro members
  induction members with
  | nil =>
      intro tried best _ _ hbest hknown c q h
      rw [explore, Reply.success.injEq] at h
      obtain ⟨rfl, -⟩ := h
      refine ⟨hbest, fun d hd => (hknown d hd).resolve_right ?_⟩
      rintro ⟨before, m, behind, hsplit, -⟩
      simp at hsplit
  | cons m rest ih =>
      intro tried best horderly hlength hbest hknown c q h
      have hmoved : tried.reverse ++ m :: rest = (m :: tried).reverse ++ rest := by simp
      have hothers : taken + 1 + (tried.reverse ++ rest).length = s.total := by
        rw [← hlength]
        simp only [List.length_append, List.length_cons]
        omega
      have horders : ∀ m' ∈ tried.reverse ++ rest,
          ForestRecognizer.Orderly s.source m'.recognizer :=
        fun m' hm' => horderly m' (((List.sublist_cons_self m rest).append_left _).subset hm')
      -- the rounds over the other members, once the orders that begin with `m` are known
      have next (best' : Candidate)
          (hbest' : s.Ordered path (tried.reverse ++ m :: rest) taken start best')
          (hle : best.rank s.total ≤ best'.rank s.total)
          (hm : ∀ d, s.Begins path m (tried.reverse ++ rest) taken start d →
            d.rank s.total ≤ best'.rank s.total)
          (h : s.explore search path start taken (m :: tried) rest best' start = .success c q) :
          s.Best path (tried.reverse ++ m :: rest) taken start c := by
        rw [hmoved] at horderly hlength hbest' hknown ⊢
        refine ih (m :: tried) best' horderly hlength hbest' (fun d hd => ?_) c q h
        rcases hknown d hd with hd | hd
        · exact Or.inl (le_trans hd hle)
        · exact hd.next.imp_left (hm d)
      rcases explore_cons search path taken tried rest best hstart
        (horderly m (by simp)) with
        ⟨f, r, c', q', hrun, hreads, hr, hfound, heq⟩ | ⟨f, r, d, q', -, -, -, -, heq⟩ |
        ⟨hpassed, heq⟩ | ⟨d, -, -, heq⟩ | ⟨hstuck, -⟩
      · have hfirst := hsearch _ r c' q' horders hothers hr hfound
        have hafter : s.Ordered path (tried.reverse ++ m :: rest) taken start (c'.after f) :=
          hfirst.ordered.after hrun hreads
        have hm : ∀ d, s.Begins path m (tried.reverse ++ rest) taken start d →
            d.rank s.total ≤ c'.rank s.total := by
          rintro d ⟨f', r', d', hrun', -, hd', rfl⟩
          rw [hrun, Reply.success.injEq] at hrun'
          obtain ⟨rfl, rfl⟩ := hrun'
          exact hfirst.rank_le d' hd'
        rw [heq] at h
        by_cases hbeats : c'.beats best = true
        · rw [if_pos hbeats] at h
          by_cases hall : c'.taken = s.total
          · rw [if_pos hall, Reply.success.injEq] at h
            obtain ⟨rfl, -⟩ := h
            refine ⟨hafter, fun d hd => ?_⟩
            have htaken : d.taken ≤ s.total := hlength ▸ hd.taken_le
            exact hafter.rank_le_of_all hrequired hall htaken
          · rw [if_neg hall] at h
            exact next _ hafter (Candidate.rank_le_of_beats hbeats) hm h
        · rw [if_neg hbeats] at h
          have hle : c'.rank s.total ≤ best.rank s.total :=
            Candidate.rank_le_of_not_beats (Bool.eq_false_iff.mpr hbeats)
          exact next best hbest (le_refl _) (fun d hd => le_trans (hm d hd) hle) h
      · rw [heq] at h
        cases h
      · rw [heq] at h
        refine next best hbest (le_refl _) ?_ h
        -- `m` cannot be taken, so no order begins with it
        rintro d ⟨f, r, d', hrun, hreads, -, -⟩
        exact absurd hreads (Nat.not_lt_of_le (hpassed f r hrun))
      · rw [heq] at h
        cases h
      · exact absurd h (hstuck c q)

/-- **The search is exhaustive.** No order of the members ranks higher than what a
search for all of them finds. -/
theorem search_best (hrequired : s.required ≤ s.total) (n : Nat) :
    ∀ (members : List Member) (taken p : Nat) (c : Candidate) (q : Nat),
      (∀ m ∈ members, ForestRecognizer.Orderly s.source m.recognizer) →
      taken + members.length = s.total → members.length ≤ n → p ≤ s.source.size →
      s.search path n members taken p = .success c q → s.Best path members taken p c := by
  induction n with
  | zero =>
      intro members taken p c q _ _ hn _ h
      obtain rfl : members = [] := List.length_eq_zero_iff.mp (Nat.le_zero.mp hn)
      rw [search, Reply.success.injEq] at h
      obtain ⟨rfl, -⟩ := h
      refine ⟨s.standing_ordered path [] taken p, fun d hd => ?_⟩
      rcases hd.begins with rfl | ⟨before, m, behind, hsplit, -⟩
      · exact le_refl _
      · simp at hsplit
  | succ n ih =>
      intro members taken p c q horderly hlength hn hp h
      rw [search] at h
      have hstanding := s.standing_ordered path members taken p
      refine explore_best hrequired hp (fun others r c' q' hothers hcount hr hfound => ?_)
        members [] _ horderly hlength hstanding (fun d hd => ?_) c q h
      · exact ih others (taken + 1) r c' q' hothers hcount (by omega) hr hfound
      · rcases hd.begins with rfl | hbegins
        · exact Or.inl (le_refl _)
        · exact Or.inr hbegins

/-! ## Members that commit tokens -/

/-- The diagnosis is that of a member which committed tokens, tried where an order of
others ended; all that were taken before are counted. -/
def Committed (s : Quorum) (path : Path) (members : List Member) (taken p : Nat)
    (d : GroupDiagnosis) : Prop :=
  ∃ order m rest ns q e, (order ++ m :: rest).Perm members ∧ Taken path order p ns q ∧
    q ≤ s.source.size ∧ m.recognizer path q = .failure e q ∧ e.cause.isIncomplete = true ∧
    d = e.withCount (taken + order.length + e.count)

/-- A member is put before the order after which another one commits tokens. -/
theorem Committed.after {m : Member} {before behind : List Member} {q : Nat} {f : Forest}
    {d : GroupDiagnosis} (h : s.Committed path (before ++ behind) (taken + 1) q d)
    (first : m.recognizer path p = .success f q) (reads : p < q) :
    s.Committed path (before ++ m :: behind) taken p d := by
  obtain ⟨order, m', rest, ns, r, e, hperm, htaken, hr, hrun, he, rfl⟩ := h
  have hperm : (m :: order ++ m' :: rest).Perm (before ++ m :: behind) :=
    (hperm.cons m).trans List.perm_middle.symm
  have hcount : taken + 1 + order.length = taken + (m :: order).length := by
    rw [List.length_cons]
    omega
  rw [hcount]
  exact ⟨m :: order, m', rest, f.nodes ++ ns, r, e, hperm, .cons first reads htaken, hr, hrun, he,
    rfl⟩

theorem explore_committed
    {search : List Member → Nat → Nat → Reply GroupDiagnosis Candidate} {start : Nat}
    (hstart : start ≤ s.source.size)
    (hsearch : ∀ others q d q', (∀ m ∈ others, ForestRecognizer.Orderly s.source m.recognizer) →
      q ≤ s.source.size → search others (taken + 1) q = .failure d q' →
      s.Committed path others (taken + 1) q d) :
    ∀ (members tried : List Member) (best : Candidate),
      (∀ m ∈ tried.reverse ++ members, ForestRecognizer.Orderly s.source m.recognizer) →
      ∀ d q, s.explore search path start taken tried members best start = .failure d q →
        s.Committed path (tried.reverse ++ members) taken start d := by
  intro members
  induction members with
  | nil =>
      intro tried best _ d q h
      rw [explore] at h
      cases h
  | cons m rest ih =>
      intro tried best horderly d q h
      have hmoved : tried.reverse ++ m :: rest = (m :: tried).reverse ++ rest := by simp
      have next (best' : Candidate)
          (h : s.explore search path start taken (m :: tried) rest best' start = .failure d q) :
          s.Committed path (tried.reverse ++ m :: rest) taken start d := by
        rw [hmoved] at horderly ⊢
        exact ih (m :: tried) best' horderly d q h
      rcases explore_cons search path taken tried rest best hstart
        (horderly m (by simp)) with
        ⟨f, r, c', q', -, -, -, -, heq⟩ | ⟨f, r, e, q', hrun, hreads, hr, hfound, heq⟩ |
        ⟨-, heq⟩ | ⟨e, hrun, he, heq⟩ | ⟨-, hstuck⟩
      · rw [heq] at h
        by_cases hbeats : c'.beats best = true
        · rw [if_pos hbeats] at h
          by_cases hall : c'.taken = s.total
          · rw [if_pos hall] at h
            cases h
          · rw [if_neg hall] at h
            exact next _ h
        · rw [if_neg hbeats] at h
          exact next best h
      · rw [heq, Reply.failure.injEq] at h
        obtain ⟨rfl, -⟩ := h
        have horders : ∀ m' ∈ tried.reverse ++ rest,
            ForestRecognizer.Orderly s.source m'.recognizer :=
          fun m' hm' => horderly m' (((List.sublist_cons_self m rest).append_left _).subset hm')
        exact (hsearch _ r e q' horders hr hfound).after hrun hreads
      · rw [heq] at h
        exact next best h
      · rw [heq, Reply.failure.injEq] at h
        obtain ⟨rfl, -⟩ := h
        have hperm : ([] ++ m :: (tried.reverse ++ rest)).Perm (tried.reverse ++ m :: rest) :=
          List.perm_middle.symm
        exact ⟨[], m, _, [], start, e, hperm, .nil start, hstart, hrun, he, rfl⟩
      · exact absurd h (hstuck d q)

/-- A search fails only for a member that committed tokens. -/
theorem search_committed (n : Nat) :
    ∀ (members : List Member) (taken p : Nat) (d : GroupDiagnosis) (q : Nat),
      (∀ m ∈ members, ForestRecognizer.Orderly s.source m.recognizer) → p ≤ s.source.size →
      s.search path n members taken p = .failure d q → s.Committed path members taken p d := by
  induction n with
  | zero =>
      intro members taken p d q _ _ h
      rw [search] at h
      cases h
  | succ n ih =>
      intro members taken p d q horderly hp h
      rw [search] at h
      exact explore_committed hp
        (fun others r e q' hothers hr hfound => ih others (taken + 1) r e q' hothers hr hfound)
        members [] _ horderly d q h

end Quorum

/-! ## The set as a whole -/

section

variable {src : Source} {members : List Member} {required p : Nat} {path : Path}

/-- **Sets.** The set answers by the best order there is; else a member committed
tokens or is not finished. -/
theorem anyOrder_best (path : Path)
    (horderly : ∀ m ∈ members, ForestRecognizer.Orderly src m.recognizer) (hp : p ≤ src.size)
    (hrequired : required ≤ members.length) :
    (∃ c, Quorum.Best ⟨src, members.length, required⟩ path members 0 p c ∧
        anyOrder src members required path p =
          if c.satisfied then .success ⟨c.nodes, c.taken == 0⟩ c.stop
          else if c.taken = 0 then .failure ⟨0, .failed path p⟩ p
          else .failure ⟨c.taken, .partway path p (c.stop - p)⟩ p) ∨
      (∃ d, Quorum.Committed ⟨src, members.length, required⟩ path members 0 p d ∧
        anyOrder src members required path p = .failure d p) ∨
      anyOrder src members required path p = .unfinished := by
  have hs := @Quorum.search_explores ⟨src, members.length, required⟩ path
    members.length members 0 p horderly hp
  simp only [anyOrder]
  cases hfound : Quorum.search ⟨src, members.length, required⟩ path members.length members 0 p with
  | success c q =>
      have hbest := Quorum.search_best (s := ⟨src, members.length, required⟩) hrequired _ members 0
        p c q horderly (Nat.zero_add _) (Nat.le_refl _) hp hfound
      obtain ⟨⟨order, rest, hperm, htaken, hcount, -⟩, rfl⟩ := hs.ordered c q hfound
      obtain ⟨hle, hstop, -⟩ := htaken.bounds
        (fun m hm => horderly m (hperm.subset (List.mem_append_left _ hm))) hp
      refine Or.inl ⟨c, hbest, ?_⟩
      simp only [Reply.bind_success, Quorum.settle, Source.seek_of_le hstop, Reply.check_ok,
        distance_of_le hle]
      by_cases hzero : c.taken = 0
      · obtain rfl : order = [] := List.length_eq_zero_iff.mp (by omega)
        cases hsatisfied : c.satisfied <;>
          simp [hzero, htaken.nodes_eq_nil, Forest.optionalEmpty, Reply.restoring,
            Source.seek_of_le hp]
      · have hbeq : (c.taken == 0) = false := by simpa using hzero
        cases hsatisfied : c.satisfied <;>
          simp [hzero, hbeq, Forest.ofNodes, Reply.restoring, Source.seek_of_le hp]
  | failure d q =>
      have hcommitted := Quorum.search_committed _ members 0 p d q horderly hp hfound
      refine Or.inr (Or.inl ⟨d, hcommitted, ?_⟩)
      simp [Reply.restoring, Source.seek_of_le hp]
  | fault f => exact absurd hfound (hs.answers f)
  | unfinished => exact Or.inr (Or.inr rfl)

end

end ConcreteSyntax
