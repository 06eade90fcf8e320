import ConcreteSyntax.Proofs.Exhaustion

/-!
# What a set prefers

Of the orders of its elements that are enough, a set takes one of the largest. If no order
takes every element, it takes one of these that ends last; then the order in which the
elements are declared makes no difference to where the set ends. An order that takes
every element ends the search as soon as it is found. Then the set ends where the first of
these does, in the order in which the elements are declared, though others may end later.
-/

namespace ConcreteSyntax

/-- A candidate that is enough is preferred to all that take fewer members. -/
theorem Candidate.beats_of_taken_lt {c d : Candidate} (hc : c.satisfied = true)
    (h : d.taken < c.taken) : c.beats d = true := by
  rw [beats_iff]
  simp only [key, Prod.Lex.toLex_lt_toLex, hc]
  cases d.satisfied <;> simp [h]

namespace Quorum

variable {s : Quorum} {path : Path} {members : List Member} {taken p : Nat} {c : Candidate}

/-! ## Orders of all members -/

/-- Some order of all the members begins with this one. -/
def Heads (path : Path) (members : List Member) (p : Nat) (m : Member) : Prop :=
  ∃ order ns q, (m :: order).Perm members ∧ Taken path (m :: order) p ns q

/-- All members taken one after the other, the first declared that can be: wherever one is
taken, no order of all that are left begins with a member declared before it. -/
inductive Earliest (path : Path) : List Member → Nat → List Node → Nat → Prop where
  | nil (p : Nat) : Earliest path [] p [] p
  | cons {before behind : List Member} {m : Member} {p q r : Nat} {f : Forest} {ns : List Node}
      (first : m.recognizer path p = .success f q) (reads : p < q)
      (none_before : ∀ m' ∈ before, ¬ Heads path (before ++ m :: behind) p m')
      (others : Earliest path (before ++ behind) q ns r) :
      Earliest path (before ++ m :: behind) p (f.nodes ++ ns) r

/-- A best candidate that leaves a member out leaves no order of all. -/
theorem Best.not_taken_of_ne (hrequired : s.required ≤ s.total)
    (hlength : taken + members.length = s.total) (hbest : s.Best path members taken p c)
    (hfew : c.taken ≠ s.total) {order : List Member} {ns : List Node} {q : Nat}
    (hperm : order.Perm members) : ¬ Taken path order p ns q := by
  intro htaken
  have hcount : taken + order.length = s.total := by rw [hperm.length_eq, hlength]
  have hordered : s.Ordered path members taken p ⟨true, taken + order.length, q, ns⟩ := by
    refine ⟨order, [], by simpa using hperm, htaken, rfl, ?_⟩
    simp only [List.filter_nil, List.length_nil, Nat.add_zero]
    exact (decide_eq_true (hcount ▸ hrequired)).symm
  have hle := hbest.ordered.taken_le
  rcases Candidate.rank_le_rank_iff.mp (hbest.rank_le _ hordered) with hlt | ⟨-, hlt | ⟨heq, -⟩⟩
  · exact absurd hlt (by simp)
  · simp only at hlt
    omega
  · exact hfew (heq.symm.trans hcount)

/-- One round ends with the earliest order of all members, if it ends with any: what is
best so far leaves a member out, and no such order begins with a member tried before. -/
theorem explore_earliest (hrequired : s.required ≤ s.total)
    {search : List Member → Nat → Nat → Reply GroupDiagnosis Candidate} {start : Nat}
    (hstart : start ≤ s.source.size)
    (hsearch : ∀ others q c q', (∀ m ∈ others, ForestRecognizer.Orderly s.source m.recognizer) →
      taken + 1 + others.length = s.total → q ≤ s.source.size →
      search others (taken + 1) q = .success c q' →
      s.Best path others (taken + 1) q c ∧
        (c.taken = s.total → Earliest path others q c.nodes c.stop)) :
    ∀ (members tried : List Member) (best : Candidate),
      (∀ m ∈ tried.reverse ++ members, ForestRecognizer.Orderly s.source m.recognizer) →
      taken + (tried.reverse ++ members).length = s.total → best.taken < s.total →
      (∀ m ∈ tried.reverse, ¬ Heads path (tried.reverse ++ members) start m) →
      ∀ c q, s.explore search path start taken tried members best start = .success c q →
        c.taken = s.total → Earliest path (tried.reverse ++ members) start c.nodes c.stop := by
  intro members
  induction members with
  | nil =>
      intro tried best _ _ hfew _ c q h hall
      rw [explore, Reply.success.injEq] at h
      exact absurd (h.1 ▸ hall) (Nat.ne_of_lt hfew)
  | cons m rest ih =>
      intro tried best horderly hlength hfew htried c q h hall
      have hmoved : tried.reverse ++ m :: rest = (m :: tried).reverse ++ rest := by simp
      have hothers : taken + 1 + (tried.reverse ++ rest).length = s.total := by
        rw [← hlength]
        simp only [List.length_append, List.length_cons]
        omega
      have horders : ∀ m' ∈ tried.reverse ++ rest,
          ForestRecognizer.Orderly s.source m'.recognizer :=
        fun m' hm' => horderly m' (((List.sublist_cons_self m rest).append_left _).subset hm')
      -- the rounds over the other members, once no order of all begins with `m`
      have next (best' : Candidate) (hfew : best'.taken < s.total)
          (hm : ¬ Heads path (tried.reverse ++ m :: rest) start m)
          (h : s.explore search path start taken (m :: tried) rest best' start = .success c q) :
          Earliest path (tried.reverse ++ m :: rest) start c.nodes c.stop := by
        rw [hmoved] at horderly hlength htried hm ⊢
        refine ih (m :: tried) best' horderly hlength hfew ?_ c q h hall
        intro m' hm'
        rw [List.reverse_cons, List.mem_append, List.mem_singleton] at hm'
        rcases hm' with hm' | rfl
        · exact htried m' hm'
        · exact hm
      rcases explore_cons search path taken tried rest best hstart
        (horderly m (by simp)) with
        ⟨f, r, c', q', hrun, hreads, hr, hfound, heq⟩ | ⟨f, r, d, q', -, -, -, -, heq⟩ |
        ⟨hpassed, heq⟩ | ⟨d, -, -, heq⟩ | ⟨hstuck, -⟩
      · obtain ⟨hbest, hearliest⟩ := hsearch _ r c' q' horders hothers hr hfound
        rw [heq] at h
        by_cases hc : c'.taken = s.total
        · -- an order of all is preferred to what is best so far and ends the round
          have hbeats : c'.beats best = true :=
            Candidate.beats_of_taken_lt (hbest.ordered.satisfied_of_all hrequired hc) (hc ▸ hfew)
          rw [if_pos hbeats, if_pos hc, Reply.success.injEq] at h
          obtain ⟨rfl, -⟩ := h
          exact .cons hrun hreads htried (hearliest hc)
        · have hm : ¬ Heads path (tried.reverse ++ m :: rest) start m := by
            rintro ⟨order, ns, t, hperm, htaken⟩
            cases htaken with
            | cons first _ others =>
                rw [hrun, Reply.success.injEq] at first
                obtain ⟨rfl, rfl⟩ := first
                have hperm : order.Perm (tried.reverse ++ rest) :=
                  (hperm.trans List.perm_middle).cons_inv
                exact hbest.not_taken_of_ne hrequired hothers hc hperm others
          have hfew' : c'.taken < s.total :=
            Nat.lt_of_le_of_ne (hothers ▸ hbest.ordered.taken_le) hc
          by_cases hbeats : c'.beats best = true
          · rw [if_pos hbeats, if_neg hc] at h
            exact next (c'.after f) hfew' hm h
          · rw [if_neg hbeats] at h
            exact next best hfew hm h
      · rw [heq] at h
        cases h
      · rw [heq] at h
        refine next best hfew ?_ h
        rintro ⟨order, ns, t, -, htaken⟩
        cases htaken with
        | cons first reads _ => exact absurd reads (Nat.not_lt_of_le (hpassed _ _ first))
      · rw [heq] at h
        cases h
      · exact absurd h (hstuck c q)

/-- **Early ends.** A search that takes every member takes them in the earliest order. -/
theorem search_earliest (hrequired : s.required ≤ s.total) (n : Nat) :
    ∀ (members : List Member) (taken p : Nat) (c : Candidate) (q : Nat),
      (∀ m ∈ members, ForestRecognizer.Orderly s.source m.recognizer) →
      taken + members.length = s.total → members.length ≤ n → p ≤ s.source.size →
      s.search path n members taken p = .success c q → c.taken = s.total →
      Earliest path members p c.nodes c.stop := by
  induction n with
  | zero =>
      intro members taken p c q _ _ hn _ h _
      obtain rfl : members = [] := List.length_eq_zero_iff.mp (Nat.le_zero.mp hn)
      rw [search, Reply.success.injEq] at h
      obtain ⟨rfl, -⟩ := h
      exact .nil p
  | succ n ih =>
      intro members taken p c q horderly hlength hn hp h hall
      cases members with
      | nil =>
          rw [search, explore, Reply.success.injEq] at h
          obtain ⟨rfl, -⟩ := h
          exact .nil p
      | cons m rest =>
          rw [search] at h
          have hfew : (s.standing (m :: rest) taken p).taken < s.total := by
            rw [← hlength, List.length_cons]
            simp only [standing]
            omega
          refine explore_earliest hrequired hp (fun others r c' q' hothers hcount hr hfound => ?_)
            (m :: rest) [] _ horderly hlength hfew (by simp) c q h hall
          have hothers' : others.length ≤ n := by
            rw [List.length_cons] at hlength hn
            omega
          exact ⟨search_best hrequired n others _ r c' q' hothers hcount hothers' hr hfound,
            ih others _ r c' q' hothers hcount hothers' hr hfound⟩

end Quorum

/-! ## The order that a set takes -/

section

variable {src : Source} {members : List Member} {required p q : Nat} {path : Path} {f : Forest}

/-- What is recognized of a set is what the search settles. -/
theorem anyOrder_selects
    (horderly : ∀ m ∈ members, ForestRecognizer.Orderly src m.recognizer) (hp : p ≤ src.size)
    (hrequired : required ≤ members.length)
    (h : anyOrder src members required path p = .success f q) :
    ∃ c, Quorum.Best ⟨src, members.length, required⟩ path members 0 p c ∧ c.satisfied = true ∧
      c.nodes = f.nodes ∧ c.stop = q ∧
      (c.taken = members.length → Quorum.Earliest path members p c.nodes c.stop) := by
  simp only [anyOrder, Reply.restoring_eq_success_iff] at h
  cases hfound : Quorum.search ⟨src, members.length, required⟩ path members.length members 0 p with
  | success c r =>
      have hbest := Quorum.search_best (s := ⟨src, members.length, required⟩) hrequired _ members 0
        p c r horderly (Nat.zero_add _) (Nat.le_refl _) hp hfound
      have hearliest := Quorum.search_earliest (s := ⟨src, members.length, required⟩) hrequired _
        members 0 p c r horderly (Nat.zero_add _) (Nat.le_refl _) hp hfound
      obtain ⟨order, rest, hperm, htaken, hcount, -⟩ := hbest.ordered
      obtain ⟨-, hstop, -⟩ := htaken.bounds
        (fun m hm => horderly m (hperm.subset (List.mem_append_left _ hm))) hp
      cases hs : c.satisfied with
      | true =>
          simp only [hfound, Reply.bind_success, Quorum.settle, hs, if_true,
            Source.seek_of_le hstop, Reply.check_ok, Reply.success.injEq] at h
          obtain ⟨rfl, rfl⟩ := h
          refine ⟨c, hbest, hs, ?_, rfl, hearliest⟩
          by_cases hzero : c.taken = 0
          · obtain rfl : order = [] := List.length_eq_zero_iff.mp (by omega)
            rw [if_pos hzero, htaken.nodes_eq_nil]
            rfl
          · rw [if_neg hzero]
            rfl
      | false =>
          simp only [hfound, Reply.bind_success, Quorum.settle, hs, Bool.false_eq_true,
            if_false] at h
          split at h
          · cases h
          · cases hlength : distance p c.stop <;> simp [hlength, Reply.check] at h
  | failure d r => simp [hfound] at h
  | fault e => simp [hfound] at h
  | unfinished => simp [hfound] at h

end

/-- Nodes and end of an order that is enough: no such order is larger, and none as large
ends later. -/
def LongestOrder (scope : Scope) (path : Path) (elements : List Element) (required p : Nat)
    (ns : List Node) (q : Nat) : Prop :=
  ∃ taken untaken, SetOrder scope path elements p taken untaken ns q ∧
    EnoughTaken required taken untaken ∧
    ∀ taken' untaken' ns' q', SetOrder scope path elements p taken' untaken' ns' q' →
      EnoughTaken required taken' untaken' →
      taken'.length ≤ taken.length ∧ (taken'.length = taken.length → q' ≤ q)

section

variable {scope : Scope} {path : Path} {elements elements' : List Element} {required p q q' : Nat}
variable {ns ns' : List Node}

/-- All longest orders end at one position, whichever way the elements are declared. -/
theorem LongestOrder.end_eq (h : LongestOrder scope path elements required p ns q)
    (h' : LongestOrder scope path elements' required p ns' q') (hperm : elements.Perm elements') :
    q = q' := by
  obtain ⟨taken, untaken, horder, henough, hlongest⟩ := h
  obtain ⟨taken', untaken', horder', henough', hlongest'⟩ := h'
  obtain ⟨hle, hend⟩ := hlongest _ _ _ _ (horder'.perm hperm.symm) henough'
  obtain ⟨hle', hend'⟩ := hlongest' _ _ _ _ (horder.perm hperm) henough
  exact Nat.le_antisymm (hend' (Nat.le_antisymm hle' hle)) (hend (Nat.le_antisymm hle hle'))

/-- A best candidate that is enough comes of a longest order, unless an order takes every
element. -/
theorem longestOrder_of_best {c : Candidate}
    (hbest : Quorum.Best ⟨scope.source, elements.length, required⟩ path
      (Element.members scope elements) 0 p c) (hs : c.satisfied = true)
    (hfew : ∀ taken ns m, ¬ SetOrder scope path elements p taken [] ns m) :
    LongestOrder scope path elements required p c.nodes c.stop := by
  obtain ⟨taken, untaken, horder, hcount, hsatisfied⟩ := hbest.ordered.setOrder
  refine ⟨taken, untaken, horder, hsatisfied.mp hs, ?_⟩
  intro taken' untaken' ns' q' horder' henough'
  obtain ⟨hlength, hstop⟩ := (hbest.bounds horder').2 fun _ => henough'
  rw [hcount] at hlength hstop
  refine ⟨hlength, fun heq => hstop heq ?_⟩
  -- nothing is left of an order that takes as many elements as there are
  intro (hall : taken'.length = elements.length)
  have hsplit := horder'.split.length_eq
  rw [List.length_append] at hsplit
  obtain rfl : untaken' = [] := List.length_eq_zero_iff.mp (by omega)
  exact hfew taken' ns' q' horder'

end

section

variable {root : String} {productions : List Production} {l : Language}
variable (hbuild : Grammar.build root productions = .ok l.grammar)
variable {minimum : Option Nat} {elements : List Element} {g : Group}
variable (hset : Group.build (.set minimum) elements = .ok g)
variable (src : Source) {p q : Nat} (hp : p ≤ src.size) (path : Path) {f : Forest}

include hset hp

/-- In a grammar without violations, what is recognized of a set is what the search
settles. -/
theorem Language.set_selects (hrun : g.recognizer (l.fullScope src) path p = .success f q) :
    ((∀ taken ns m, ¬ SetOrder (l.fullScope src) path elements p taken [] ns m) →
        LongestOrder (l.fullScope src) path elements
          (Group.requirement minimum elements.length) p f.nodes q) ∧
      ((∃ taken ns m, SetOrder (l.fullScope src) path elements p taken [] ns m) →
        Quorum.Earliest path (Element.members (l.fullScope src) elements) p f.nodes q) := by
  obtain ⟨rfl, hrequired⟩ := Group.build_set hset
  have hsource : (l.fullScope src).source = src := l.scope_source src _
  have horderly : ∀ e ∈ elements,
      ForestRecognizer.Orderly (l.fullScope src).source (e.recognizer (l.fullScope src)) :=
    fun e _ => (Kind.recognizer_orderly (l.scope_orderly src (l.stage src))).2 e
  have hp' : p ≤ (l.fullScope src).source.size := by rw [hsource]; exact hp
  have hlength := Element.length_members (l.fullScope src) elements
  rw [Group.recognizer_set] at hrun
  obtain ⟨c, hbest, hs, hnodes, hstop, hearliest⟩ :=
    anyOrder_selects (members_orderly horderly) hp' (hlength ▸ hrequired) hrun
  rw [hlength] at hbest hearliest
  rw [hnodes, hstop] at hearliest
  constructor
  · intro hfew
    have hlongest := longestOrder_of_best hbest hs hfew
    rwa [hnodes, hstop] at hlongest
  · rintro ⟨taken, ns, m, horder⟩
    refine hearliest ?_
    by_contra hfew
    have hperm : (Element.members (l.fullScope src) taken).Perm
        (Element.members (l.fullScope src) elements) := by
      have hsplit := horder.split
      rw [List.append_nil] at hsplit
      simp only [Element.members_eq_map]
      exact hsplit.map _
    exact hbest.not_taken_of_ne hrequired (by simp) hfew hperm horder.run

include hbuild

/-- **Preference.** If no element commits tokens and then fails, anywhere in the input, and
no order takes every element of a set, then a set that is recognized ends where the longest
orders end, and so it does if its elements are declared in another order. If some order
takes every element, the set takes the earliest of these. -/
theorem set_prefers_longest
    (hfails : ∀ e ∈ elements, ∀ q ≤ src.size, ∀ d m,
      e.recognizer (l.fullScope src) path q = .failure d m → d.cause.isIncomplete = false)
    (hrun : g.recognizer (l.fullScope src) path p = .success f q) :
    ((∀ taken ns m, ¬ SetOrder (l.fullScope src) path elements p taken [] ns m) →
        LongestOrder (l.fullScope src) path elements
            (Group.requirement minimum elements.length) p f.nodes q ∧
          ∀ elements' g', elements.Perm elements' →
            Group.build (.set minimum) elements' = .ok g' →
            ∃ f', g'.recognizer (l.fullScope src) path p = .success f' q) ∧
      ((∃ taken ns m, SetOrder (l.fullScope src) path elements p taken [] ns m) →
        Quorum.Earliest path (Element.members (l.fullScope src) elements) p f.nodes q) := by
  obtain ⟨hlongest, hearliest⟩ := Language.set_selects hset src hp path hrun
  refine ⟨fun hfew => ⟨hlongest hfew, ?_⟩, hearliest⟩
  intro elements' g' hperm hset'
  have hfails' : ∀ e ∈ elements', ∀ q ≤ src.size, ∀ d m,
      e.recognizer (l.fullScope src) path q = .failure d m → d.cause.isIncomplete = false :=
    fun e he => hfails e (hperm.symm.subset he)
  have hfew' : ∀ taken ns m, ¬ SetOrder (l.fullScope src) path elements' p taken [] ns m :=
    fun taken ns m horder => hfew taken ns m (horder.perm hperm.symm)
  -- the permuted set is recognized because the same orders are enough for it
  have hexhausted' := (Language.set_exhausted hbuild hset' src hp path).resolve_right
    (Language.not_interrupted src path hfails')
  obtain ⟨taken, untaken, horder, henough, -⟩ := hlongest hfew
  rw [hperm.length_eq] at henough
  obtain ⟨f', q', hrun'⟩ := hexhausted'.success_iff.mpr
    ⟨taken, untaken, _, _, horder.perm hperm, henough⟩
  have hlongest' := (Language.set_selects hset' src hp path hrun').1 hfew'
  rw [← hperm.length_eq] at hlongest'
  obtain rfl := (hlongest hfew).end_eq hlongest' hperm
  exact ⟨f', hrun'⟩

end

/-- A letter, and the same letter with another one behind it or alone. -/
def letterOrTwo : List Element :=
  [.mk (.group .sequence [.mk (.character 'a') .once, .mk (.character 'b') .optional]) .once,
    .mk (.character 'a') .once]

/-- Neither element commits tokens and then fails. -/
theorem letterOrTwo_uncommitted {text : String} (htext : text = "aab" ∨ text = "ab") :
    ∀ e ∈ letterOrTwo, ∀ q ≤ (Source.ofString text).size, ∀ d m,
      e.recognizer (pairLanguage.fullScope (Source.ofString text)) (.root "set") q =
        .failure d m → d.cause.isIncomplete = false := by
  intro e he q hq d m h
  simp only [letterOrTwo, List.mem_cons, List.not_mem_nil, or_false] at he
  rcases htext with rfl | rfl
  · change q ≤ 3 at hq
    obtain rfl | rfl | rfl | rfl : q = 0 ∨ q = 1 ∨ q = 2 ∨ q = 3 := by omega
    all_goals
      rcases he with rfl | rfl <;> cases h <;> rfl
  · change q ≤ 2 at hq
    obtain rfl | rfl | rfl : q = 0 ∨ q = 1 ∨ q = 2 := by omega
    all_goals
      rcases he with rfl | rfl <;> cases h <;> rfl

/-- Declared first, the two letters are taken first and the set ends early: the order that
ends later is not looked for. -/
theorem longest_order_passed_over :
    Group.build (.set none) letterOrTwo = .ok ⟨.set none, letterOrTwo⟩ ∧
      Group.build (.set none) letterOrTwo.reverse = .ok ⟨.set none, letterOrTwo.reverse⟩ ∧
      letterOrTwo.Perm letterOrTwo.reverse ∧
      (∀ e ∈ letterOrTwo, ∀ q ≤ (Source.ofString "aab").size, ∀ d m,
        e.recognizer (pairLanguage.fullScope (Source.ofString "aab")) (.root "set") q =
          .failure d m → d.cause.isIncomplete = false) ∧
      (∃ f, setReply letterOrTwo "aab" = .success f 2 ∧
        ¬ LongestOrder (pairLanguage.fullScope (Source.ofString "aab")) (.root "set") letterOrTwo 2
          0 f.nodes 2) ∧
      ∃ f, setReply letterOrTwo.reverse "aab" = .success f 3 := by
  have hperm : letterOrTwo.Perm letterOrTwo.reverse := (List.reverse_perm _).symm
  refine ⟨rfl, rfl, hperm, letterOrTwo_uncommitted (Or.inl rfl), ⟨_, rfl, ?_⟩, _, rfl⟩
  rintro ⟨taken, untaken, horder, -, hlongest⟩
  have hlater : ∃ ns, SetOrder (pairLanguage.fullScope (Source.ofString "aab")) (.root "set")
      letterOrTwo 0 letterOrTwo.reverse [] ns 3 :=
    ⟨_, by simp, .cons rfl (by decide) (.cons rfl (by decide) (.nil 3))⟩
  obtain ⟨ns, hlater⟩ := hlater
  obtain ⟨hlarge, hend⟩ := hlongest _ _ _ _ hlater (by decide)
  have hsplit := horder.split.length_eq
  rw [List.length_append] at hsplit
  have htwo : letterOrTwo.reverse.length = 2 := rfl
  have htwo' : letterOrTwo.length = 2 := rfl
  have := hend (by omega)
  omega

/-- With one of the two elements required and no order of both, either way of declaring
them leads to the order that ends last. -/
theorem set_prefers_longest_of_one :
    Grammar.build "pair" pairLanguage.grammar.productions = .ok pairLanguage.grammar ∧
      Group.build (.set (some 1)) letterOrTwo.reverse = .ok ⟨.set (some 1), letterOrTwo.reverse⟩ ∧
      0 ≤ (Source.ofString "ab").size ∧
      (∀ e ∈ letterOrTwo.reverse, ∀ q ≤ (Source.ofString "ab").size, ∀ d m,
        e.recognizer (pairLanguage.fullScope (Source.ofString "ab")) (.root "set") q =
          .failure d m → d.cause.isIncomplete = false) ∧
      ∃ f, Group.recognizer (pairLanguage.fullScope (Source.ofString "ab"))
          ⟨.set (some 1), letterOrTwo.reverse⟩ (.root "set") 0 = .success f 2 ∧
        LongestOrder (pairLanguage.fullScope (Source.ofString "ab")) (.root "set")
          letterOrTwo.reverse 1 0 f.nodes 2 ∧
        ∃ f', Group.recognizer (pairLanguage.fullScope (Source.ofString "ab"))
          ⟨.set (some 1), letterOrTwo⟩ (.root "set") 0 = .success f' 2 := by
  have hset : Group.build (.set (some 1)) letterOrTwo.reverse =
    .ok ⟨.set (some 1), letterOrTwo.reverse⟩ := rfl
  have hset' : Group.build (.set (some 1)) letterOrTwo = .ok ⟨.set (some 1), letterOrTwo⟩ := rfl
  have hfails : ∀ e ∈ letterOrTwo.reverse, ∀ q ≤ (Source.ofString "ab").size, ∀ d m,
      e.recognizer (pairLanguage.fullScope (Source.ofString "ab")) (.root "set") q =
        .failure d m → d.cause.isIncomplete = false :=
    fun e he => letterOrTwo_uncommitted (Or.inr rfl) e (List.mem_reverse.mp he)
  have hrun : ∃ f, Group.recognizer (pairLanguage.fullScope (Source.ofString "ab"))
      ⟨.set (some 1), letterOrTwo.reverse⟩ (.root "set") 0 = .success f 2 := ⟨_, rfl⟩
  obtain ⟨f, hrun⟩ := hrun
  -- behind either element the other finds no `a`
  have hfew : ∀ taken ns m, ¬ SetOrder (pairLanguage.fullScope (Source.ofString "ab"))
      (.root "set") letterOrTwo.reverse 0 taken [] ns m := by
    rintro taken ns m ⟨hsplit, hrun⟩
    rw [List.append_nil] at hsplit
    obtain ⟨e, e', rfl⟩ := List.length_eq_two.mp hsplit.length_eq
    have he : e ∈ letterOrTwo.reverse := hsplit.subset (by simp)
    have he' : e' ∈ letterOrTwo.reverse := hsplit.subset (by simp)
    simp only [letterOrTwo, List.reverse_cons, List.reverse_nil, List.nil_append, List.mem_append,
      List.mem_singleton] at he he'
    cases hrun with
    | cons first _ others =>
        cases others with
        | cons second _ _ =>
            rcases he with rfl | rfl <;> cases first <;> rcases he' with rfl | rfl <;> cases second
  obtain ⟨hlongest, hpermuted⟩ := (set_prefers_longest build_pair hset _ (by decide) (.root "set")
    hfails hrun).1 hfew
  exact ⟨build_pair, hset, by decide, hfails, f, hrun, hlongest,
    hpermuted _ _ (List.reverse_perm _) hset'⟩

end ConcreteSyntax
