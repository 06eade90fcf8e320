import ConcreteSyntax.Proofs.Termination

/-!
# What a recognition calls

A recognition calls others, and where it calls them depends on what became of those
before. Which are called is said here for every way of combining recognizers, with all
that is given up on the way: occurrences, alternatives and orders that come to nothing.
Nothing else is called: whatever other recognizers would answer elsewhere, it makes no
difference.
-/

namespace ConcreteSyntax

/-! ## Repetitions -/

namespace Cardinality

/-- The positions at which an occurrence is called, `done` having been recognized. -/
inductive Calls (c : Cardinality) (occurrence : Nat → Reply GroupDiagnosis Forest) :
    (done position : Nat) → Nat → Prop where
  | here {done p : Nat} (room : c.isFull done = false) : Calls c occurrence done p p
  | later {done p m q : Nat} {f : Forest} (room : c.isFull done = false)
      (step : occurrence p = .success f m) (moved : m ≠ p)
      (others : Calls c occurrence (done + 1) m q) : Calls c occurrence done p q

variable {c : Cardinality} {src : Source}

theorem Calls.inside {occurrence : Nat → Reply GroupDiagnosis Forest} {done p q : Nat}
    (h : c.Calls occurrence done p q)
    (hocc : ∀ p, p ≤ src.size → (occurrence p).Orderly Forest.Within src p) (hp : p ≤ src.size) :
    q ≤ src.size := by
  induction h with
  | here _ => exact hp
  | later _ step _ _ ih => exact ih ((hocc _ hp).advances _ _ step).2.1

/-- Only what occurrences answer where they are called matters to a run. -/
theorem runFrom_congr {occurrence occurrence' : Nat → Reply GroupDiagnosis Forest} (bound : Nat) :
    ∀ {done p : Nat}, (∀ q, c.Calls occurrence done p q → occurrence q = occurrence' q) →
      c.runFrom (fun _ => occurrence) bound done p =
        c.runFrom (fun _ => occurrence') bound done p := by
  induction bound with
  | zero =>
      intro done p _
      rw [runFrom, runFrom]
  | succ bound ih =>
      intro done p h
      rw [runFrom, runFrom]
      by_cases hfull : c.isFull done = true
      · rw [if_pos hfull, if_pos hfull]
      · have room : c.isFull done = false := Bool.eq_false_iff.mpr hfull
        rw [if_neg hfull, if_neg hfull]
        simp only [← h p (.here room)]
        cases hrun : occurrence p with
        | success f q =>
            by_cases hq : q = p
            · simp only [if_pos hq]
            · have hothers : c.runFrom (fun _ => occurrence) bound (done + 1) q =
                  c.runFrom (fun _ => occurrence') bound (done + 1) q :=
                ih fun r hr => h r (.later room hrun hq hr)
              simp only [if_neg hq, hothers]
        | _ => rfl

end Cardinality

/-! ## Sets -/

namespace Quorum

/-- The members tried in one round and in the searches behind it, and where. A round
goes on to its next member behind one that was not taken, and behind one that was
unless the best order with it takes every member. -/
inductive Tries (s : Quorum) (path : Path) : (n start taken : Nat) →
    (tried members : List Member) → Candidate → Member → Nat → Prop where
  | here {n start taken : Nat} {tried rest : List Member} {best : Candidate} {m : Member} :
      Tries s path n start taken tried (m :: rest) best m start
  | behind {n start taken q r : Nat} {tried rest : List Member} {best : Candidate}
      {m m' : Member} {f : Forest} (first : m.recognizer path start = .success f q)
      (reads : start < q)
      (others : Tries s path n q (taken + 1) [] (tried.reverse ++ rest)
        (s.standing (tried.reverse ++ rest) (taken + 1) q) m' r) :
      Tries s path (n + 1) start taken tried (m :: rest) best m' r
  | failed {n start taken q r : Nat} {tried rest : List Member} {best : Candidate}
      {m m' : Member} {d : GroupDiagnosis} (first : m.recognizer path start = .failure d q)
      (uncommitted : d.cause.isIncomplete = false)
      (next : Tries s path n start taken (m :: tried) rest best m' r) :
      Tries s path n start taken tried (m :: rest) best m' r
  | idle {n start taken q r : Nat} {tried rest : List Member} {best : Candidate}
      {m m' : Member} {f : Forest} (first : m.recognizer path start = .success f q)
      (idle : ¬ start < q) (next : Tries s path n start taken (m :: tried) rest best m' r) :
      Tries s path n start taken tried (m :: rest) best m' r
  | worse {n start taken q r t : Nat} {tried rest : List Member} {best c : Candidate}
      {m m' : Member} {f : Forest} (first : m.recognizer path start = .success f q)
      (reads : start < q)
      (found : s.search path n (tried.reverse ++ rest) (taken + 1) q = .success c t)
      (worse : c.beats best = false)
      (next : Tries s path n start taken (m :: tried) rest best m' r) :
      Tries s path n start taken tried (m :: rest) best m' r
  | better {n start taken q r t : Nat} {tried rest : List Member} {best c : Candidate}
      {m m' : Member} {f : Forest} (first : m.recognizer path start = .success f q)
      (reads : start < q)
      (found : s.search path n (tried.reverse ++ rest) (taken + 1) q = .success c t)
      (better : c.beats best = true) (some_left : c.taken ≠ s.total)
      (next : Tries s path n start taken (m :: tried) rest (c.after f) m' r) :
      Tries s path n start taken tried (m :: rest) best m' r

variable {s : Quorum} {path : Path} {n start taken : Nat} {tried members : List Member}
variable {best : Candidate} {m : Member} {q : Nat}

theorem Tries.inside (h : s.Tries path n start taken tried members best m q)
    (horderly : ∀ m ∈ tried.reverse ++ members, ForestRecognizer.Orderly s.source m.recognizer)
    (hstart : start ≤ s.source.size) : q ≤ s.source.size := by
  induction h with
  | here => exact hstart
  | @behind n start taken q r tried rest best m m' f first reads _ ih =>
      obtain ⟨-, hq, -⟩ := (horderly m (by simp) path start hstart).advances f q first
      refine ih (fun m' hm' => horderly m' ?_) hq
      exact ((List.sublist_cons_self m rest).append_left _).subset (by simpa using hm')
  | failed _ _ _ ih => exact ih (by simpa using horderly) hstart
  | idle _ _ _ ih => exact ih (by simpa using horderly) hstart
  | worse _ _ _ _ _ ih => exact ih (by simpa using horderly) hstart
  | better _ _ _ _ _ _ ih => exact ih (by simpa using horderly) hstart

/-! What is tried is given by views of some indices as members, so that two sets of members
can be compared. -/

section

variable {ι : Type} {view view' : ι → Member}

theorem standing_congr (hoptional : ∀ i, (view i).optional = (view' i).optional) (is : List ι)
    (taken p : Nat) : s.standing (is.map view) taken p = s.standing (is.map view') taken p := by
  have hsame : Member.optional ∘ view = Member.optional ∘ view' := funext hoptional
  simp only [standing, List.filter_map, List.length_map, hsame]

theorem explore_congr
    (hsearch : ∀ (is : List ι) (taken p : Nat),
      (∀ i ∈ is, ForestRecognizer.Orderly s.source (view i).recognizer) → p ≤ s.source.size →
      (∀ i ∈ is, ∀ k r, n = k + 1 →
        s.Tries path k p taken [] (is.map view) (s.standing (is.map view) taken p) (view i) r →
        (view i).recognizer path r = (view' i).recognizer path r) →
      s.search path n (is.map view) taken p = s.search path n (is.map view') taken p)
    (hstart : start ≤ s.source.size) :
    ∀ (is tried : List ι) (best : Candidate),
      (∀ i ∈ tried.reverse ++ is, ForestRecognizer.Orderly s.source (view i).recognizer) →
      (∀ i ∈ tried.reverse ++ is, ∀ r,
        s.Tries path n start taken (tried.map view) (is.map view) best (view i) r →
        (view i).recognizer path r = (view' i).recognizer path r) →
      s.explore (s.search path n) path start taken (tried.map view) (is.map view) best start =
        s.explore (s.search path n) path start taken (tried.map view') (is.map view') best
          start := by
  intro is
  induction is with
  | nil =>
      intro tried best _ _
      rw [List.map_nil, List.map_nil, explore, explore]
  | cons i rest ih =>
      intro tried best horderly h
      have hmoved : tried.reverse ++ i :: rest = (i :: tried).reverse ++ rest := by simp
      have hi : i ∈ tried.reverse ++ i :: rest := by simp
      have hothers (view : ι → Member) :
          (tried.map view).reverse ++ rest.map view = (tried.reverse ++ rest).map view := by simp
      have hsub {i' : ι} (hi' : i' ∈ tried.reverse ++ rest) : i' ∈ tried.reverse ++ i :: rest :=
        ((List.sublist_cons_self i rest).append_left _).subset hi'
      have hfirst : (view i).recognizer path start = (view' i).recognizer path start :=
        h i hi start .here
      -- whenever a round goes on behind `i`, what is tried there is tried in the round
      have next (best' : Candidate) (htries : ∀ i' r,
          s.Tries path n start taken ((i :: tried).map view) (rest.map view) best' (view i') r →
          s.Tries path n start taken (tried.map view) ((i :: rest).map view) best (view i') r) :
          s.explore (s.search path n) path start taken (view i :: tried.map view) (rest.map view)
              best' start =
            s.explore (s.search path n) path start taken (view' i :: tried.map view')
              (rest.map view') best' start := by
        rw [hmoved] at horderly h
        exact ih (i :: tried) best' horderly fun i' hi' r hr => h i' hi' r (htries i' r hr)
      simp only [List.map_cons, explore, ← hfirst, hothers]
      cases hrun : (view i).recognizer path start with
      | success f q =>
          obtain ⟨hq, hsize, -⟩ := (horderly i hi path start hstart).advances f q hrun
          by_cases hreads : start < q
          · have hsame := hsearch (tried.reverse ++ rest) (taken + 1) q
              (fun i' hi' => horderly i' (hsub hi')) hsize (by
                rintro i' hi' k r rfl hr
                rw [← hothers] at hr
                exact h i' (hsub hi') r (.behind hrun hreads hr))
            simp only [if_pos hreads, ← hsame]
            cases hfound : s.search path n ((tried.reverse ++ rest).map view) (taken + 1) q with
            | success c t =>
                rw [← hothers] at hfound
                simp only [Source.seek_of_le hstart, Reply.check_ok]
                by_cases hbeats : c.beats best = true
                · by_cases hall : c.taken = s.total
                  · simp only [if_pos hbeats, if_pos hall]
                  · simp only [if_pos hbeats, if_neg hall]
                    exact next _ fun i' r hr => .better hrun hreads hfound hbeats hall hr
                · simp only [if_neg hbeats]
                  exact next best fun i' r hr =>
                    .worse hrun hreads hfound (Bool.eq_false_iff.mpr hbeats) hr
            | _ => rfl
          · obtain rfl : q = start := by omega
            simp only [if_neg hreads]
            exact next best fun i' r hr => .idle hrun hreads hr
      | failure d q =>
          obtain rfl := (horderly i hi path start hstart).returns d q hrun
          cases hd : d.cause.isIncomplete with
          | true => simp only [hd, if_true]
          | false =>
              simp only [hd, Bool.false_eq_true, if_false]
              exact next best fun i' r hr => .failed hrun hd hr
      | _ => rfl

/-- Only what members answer where they are tried matters to a search. -/
theorem search_congr (hoptional : ∀ i, (view i).optional = (view' i).optional) (n : Nat) :
    ∀ (is : List ι) (taken p : Nat),
      (∀ i ∈ is, ForestRecognizer.Orderly s.source (view i).recognizer) → p ≤ s.source.size →
      (∀ i ∈ is, ∀ k r, n = k + 1 →
        s.Tries path k p taken [] (is.map view) (s.standing (is.map view) taken p) (view i) r →
        (view i).recognizer path r = (view' i).recognizer path r) →
      s.search path n (is.map view) taken p = s.search path n (is.map view') taken p := by
  induction n with
  | zero =>
      intro is taken p _ _ _
      rw [search, search, standing_congr hoptional]
  | succ n ih =>
      intro is taken p horderly hp h
      rw [search, search, ← standing_congr hoptional is taken p]
      exact explore_congr ih hp is [] _ horderly fun i hi r hr => h i hi n r rfl hr

end

/-- The set of these elements as a whole. -/
def ofElements (src : Source) (minimum : Option Nat) (elements : List Element) : Quorum :=
  ⟨src, elements.length, Group.requirement minimum elements.length⟩

end Quorum

/-! ## Groups -/

section

variable {view view' : Element → ForestRecognizer} {path : Path}

/-- Only what elements answer behind those before them matters to a sequence. -/
theorem sequenceFrom_congr : ∀ {es : List Element} {index p : Nat},
    (∀ pre e post ns q, es = pre ++ e :: post → InTurn path (pre.map view) p ns q →
      view e path q = view' e path q) →
    sequenceFrom index (es.map view) path p = sequenceFrom index (es.map view') path p
  | [], _, _, _ => rfl
  | e :: rest, index, p, h => by
      have hfirst : view e path p = view' e path p := h [] e rest [] p rfl (.nil p)
      simp only [List.map_cons, sequenceFrom, ← hfirst]
      cases hrun : view e path p with
      | success f q =>
          have hothers : sequenceFrom (index + 1) (rest.map view) path q =
              sequenceFrom (index + 1) (rest.map view') path q := by
            apply sequenceFrom_congr
            intro pre e' post ns r hsplit hpre
            have hsplit : e :: rest = e :: pre ++ e' :: post := congrArg (e :: ·) hsplit
            exact h (e :: pre) e' post (f.nodes ++ ns) r hsplit (.cons hrun hpre)
          simp only [hothers]
      | _ => rfl

/-- Only what alternatives answer behind those that failed matters to a choice. -/
theorem choiceAfter_congr : ∀ {es : List Element} {sofar : Option GroupDiagnosis} {p : Nat},
    (∀ pre e post q, es = pre ++ e :: post → AllFail path (pre.map view) p q →
      view e path q = view' e path q) →
    choiceAfter sofar (es.map view) path p = choiceAfter sofar (es.map view') path p
  | [], _, _, _ => rfl
  | e :: rest, sofar, p, h => by
      have hfirst : view e path p = view' e path p := h [] e rest p rfl (.nil p)
      simp only [List.map_cons, choiceAfter, ← hfirst]
      cases hrun : view e path p with
      | failure d q =>
          cases hd : d.cause.isIncomplete with
          | true => simp only [hd, if_true]
          | false =>
              simp only [hd, Bool.false_eq_true, if_false]
              apply choiceAfter_congr
              intro pre e' post r hsplit hpre
              exact h (e :: pre) e' post r (congrArg (e :: ·) hsplit) (.cons hrun hd hpre)
      | _ => rfl

end

/-- The elements that a group entered at a position calls, and where. -/
inductive Group.Calls (scope : Scope) (path : Path) : Group → Nat → Element → Nat → Prop where
  | sequence {pre post : List Element} {e : Element} {ns : List Node} {p q : Nat}
      (before : InTurn path (pre.map (Element.recognizer scope)) p ns q) :
      Group.Calls scope path ⟨.sequence, pre ++ e :: post⟩ p e q
  | choice {pre post : List Element} {e : Element} {p q : Nat}
      (before : AllFail path (pre.map (Element.recognizer scope)) p q) :
      Group.Calls scope path ⟨.choice, pre ++ e :: post⟩ p e q
  | set {minimum : Option Nat} {elements : List Element} {e : Element} {n p q : Nat}
      (count : elements.length = n + 1) (member : e ∈ elements)
      (tried : (Quorum.ofElements scope.source minimum elements).Tries path n p 0 []
        (Element.members scope elements)
        ((Quorum.ofElements scope.source minimum elements).standing
          (Element.members scope elements) 0 p) ⟨e.isOptional, e.recognizer scope⟩ q) :
      Group.Calls scope path ⟨.set minimum, elements⟩ p e q

section

variable {scope : Scope} {path : Path} {g : Group} {e : Element} {p q : Nat}
variable (helements : ∀ e : Element, ForestRecognizer.Orderly scope.source (e.recognizer scope))

include helements

theorem Group.Calls.inside (h : g.Calls scope path p e q) (hp : p ≤ scope.source.size) :
    q ≤ scope.source.size := by
  have hpre (pre : List Element) : ∀ r ∈ pre.map (Element.recognizer scope),
      ForestRecognizer.Orderly scope.source r :=
    List.forall_mem_map.mpr fun e _ => helements e
  cases h with
  | sequence before => exact (before.bounds (hpre _) hp).2.1
  | choice before => exact before.stays (hpre _) hp ▸ hp
  | set _ _ tried =>
      exact tried.inside (members_orderly fun e _ => helements e) hp

/-- **Groups call nothing else.** If the elements of a group would answer otherwise only
where they are not called, the group answers the same. -/
theorem Group.recognizer_congr {scope' : Scope} (hsource : scope'.source = scope.source)
    (hp : p ≤ scope.source.size)
    (h : ∀ e q, g.Calls scope path p e q →
      e.recognizer scope path q = e.recognizer scope' path q) :
    g.recognizer scope path p = g.recognizer scope' path p := by
  obtain ⟨aggregation, elements⟩ := g
  cases aggregation with
  | sequence =>
      have hrun : sequenceFrom 0 (elements.map (Element.recognizer scope)) path p =
          sequenceFrom 0 (elements.map (Element.recognizer scope')) path p := by
        apply sequenceFrom_congr
        rintro pre e post ns q rfl hpre
        exact h e q (.sequence hpre)
      rw [recognizer_sequence, recognizer_sequence, hsource]
      simp only [ConcreteSyntax.sequence, hrun]
  | choice =>
      rw [recognizer_choice, recognizer_choice]
      apply choiceAfter_congr
      rintro pre e post q rfl hpre
      exact h e q (.choice hpre)
  | set minimum =>
      have hrun : (Quorum.ofElements scope.source minimum elements).search path elements.length
            (Element.members scope elements) 0 p =
          (Quorum.ofElements scope.source minimum elements).search path elements.length
            (Element.members scope' elements) 0 p := by
        rw [Element.members_eq_map, Element.members_eq_map]
        apply Quorum.search_congr
        · exact fun _ => rfl
        · exact fun e _ => helements e
        · exact hp
        · intro e he k q hk hq
          rw [← Element.members_eq_map] at hq
          exact h e q (.set hk he hq)
      rw [Quorum.ofElements] at hrun
      rw [recognizer_set, recognizer_set, hsource]
      simp only [anyOrder, Element.length_members, hrun]

end

/-- **Elements call nothing else.** -/
theorem Element.recognizer_congr {scope scope' : Scope} {k : Kind} {c : Cardinality} {path : Path}
    {p : Nat} (hsource : scope'.source = scope.source) (hbound : scope'.bound = scope.bound)
    (h : ∀ q, c.Calls (k.recognizer scope path) 0 p q →
      k.recognizer scope path q = k.recognizer scope' path q) :
    (Element.mk k c).recognizer scope path p = (Element.mk k c).recognizer scope' path p := by
  have hrun := Cardinality.runFrom_congr scope.bound h
  rw [recognizer_mk, recognizer_mk, hsource, hbound]
  simp only [Cardinality.repeating, hrun]

/-! ## Attempts -/

/-- What can be recognized. -/
inductive Task where
  /-- The production with this symbol. -/
  | symbol (symbol : String)
  | production (production : Production)
  | rule (rule : Rule)
  | group (group : Group)
  | element (element : Element)
  /-- One occurrence of an element of this kind. -/
  | occurrence (kind : Kind)

/-- Something to be recognized under a path, from a position on. -/
structure Attempt where
  task : Task
  path : Path
  position : Nat

namespace Language

/-- The attempts that an attempt makes directly. -/
inductive Calls (l : Language) (src : Source) : Attempt → Attempt → Prop where
  | production {symbol : String} {r : Production} {path : Path} {p : Nat}
      (found : l.grammar.find? symbol = some r) :
      Calls l src ⟨.symbol symbol, path, p⟩ ⟨.production r, path, p⟩
  | rule (r : Production) (path : Path) (p : Nat) :
      Calls l src ⟨.production r, path, p⟩ ⟨.rule r.rule, path, p⟩
  | group (r : Composite) (path : Path) (p : Nat) :
      Calls l src ⟨.rule (.composite r), path, p⟩ ⟨.group r.group, path, p⟩
  | element {g : Group} {e : Element} {path : Path} {p q : Nat}
      (called : g.Calls (l.fullScope src) path p e q) :
      Calls l src ⟨.group g, path, p⟩ ⟨.element e, path, q⟩
  | occurrence {k : Kind} {c : Cardinality} {path : Path} {p q : Nat}
      (called : c.Calls (k.recognizer (l.fullScope src) path) 0 p q) :
      Calls l src ⟨.element (.mk k c), path, p⟩ ⟨.occurrence k, path, q⟩
  | reference (symbol : String) (path : Path) (p : Nat) :
      Calls l src ⟨.occurrence (.reference symbol), path, p⟩
        ⟨.symbol symbol, path.child symbol, p⟩
  | terminal (t : Terminal) (path : Path) (p : Nat) :
      Calls l src ⟨.occurrence (.terminal t), path, p⟩
        ⟨.rule (.terminal t), path.child t.inlineSymbol, p⟩
  | nested (a : Aggregation) (es : List Element) (path : Path) (p : Nat) :
      Calls l src ⟨.occurrence (.group a es), path, p⟩ ⟨.group ⟨a, es⟩, path, p⟩

theorem Calls.inside {l : Language} {src : Source} {a b : Attempt} (h : l.Calls src a b)
    (ha : a.position ≤ src.size) : b.position ≤ src.size := by
  have hsource : (l.fullScope src).source = src := l.scope_source src _
  have horderly := Kind.recognizer_orderly (l.scope_orderly src (l.stage src))
  cases h with
  | element called => exact hsource ▸ called.inside horderly.2 (hsource.symm ▸ ha)
  | occurrence called =>
      exact called.inside (fun q hq => hsource ▸ horderly.1 _ _ q (hsource.symm ▸ hq)) ha
  | _ => exact ha

end Language

end ConcreteSyntax
