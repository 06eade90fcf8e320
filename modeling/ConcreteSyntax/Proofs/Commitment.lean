import ConcreteSyntax.Proofs.Calls
import Mathlib.Logic.Relation

/-!
# What is committed comes to the top

If a recognition calls another that fails after it committed tokens, it fails for the
same reason, and so does every recognition on the way to the top. It does not matter
that an alternative is left, that a repetition has enough already or that the members
of a set could be taken in another order. Only how many elements are counted may
change.
-/

namespace ConcreteSyntax

/-! ## Groups -/

section

variable {path : Path} {e : ForestRecognizer} {pre : List ForestRecognizer} {p m : Nat}

/-- An element of a sequence is called where those before it have ended. If it fails
the sequence does. -/
theorem InTurn.fails {ns : List Node} {d : GroupDiagnosis} {q : Nat}
    (h : InTurn path pre p ns m) (he : e path m = .failure d q) (post : List ForestRecognizer) :
    ∀ index, sequenceFrom index (pre ++ e :: post) path p =
      .failure (d.behind (index + pre.length)) q := by
  induction h with
  | nil p =>
      intro index
      rw [List.nil_append, sequenceFrom, he]
      rfl
  | @cons _ rest _ _ _ _ _ first _ ih =>
      intro index
      have hindex : index + 1 + rest.length = index + (rest.length + 1) := by omega
      rw [List.cons_append, sequenceFrom, first, List.length_cons]
      simp only [ih he (index + 1), hindex, Reply.map]

theorem InTurn.sequence_fails {src : Source} {ns : List Node} {d : GroupDiagnosis} {q : Nat}
    (h : InTurn path pre p ns m) (hp : p ≤ src.size) (he : e path m = .failure d q)
    (post : List ForestRecognizer) :
    sequence src (pre ++ e :: post) path p = .failure (d.behind pre.length) p := by
  simp only [sequence, h.fails he post 0, Reply.restoring, Source.seek_of_le hp, Reply.check_ok,
    Nat.zero_add]

/-- An alternative is called where those before it have failed. If it committed tokens
the choice ends with it. -/
theorem AllFail.fails {d : GroupDiagnosis} {q : Nat} (h : AllFail path pre p m)
    (he : e path m = .failure d q) (hd : d.cause.isIncomplete = true)
    (post : List ForestRecognizer) :
    ∀ sofar, choiceAfter sofar (pre ++ e :: post) path p = .failure d q := by
  induction h with
  | nil p =>
      intro sofar
      rw [List.nil_append, choiceAfter, he]
      simp only [hd, if_true]
  | cons first uncommitted _ ih =>
      intro sofar
      rw [List.cons_append, choiceAfter, first]
      simp only [uncommitted, Bool.false_eq_true, if_false]
      exact ih he _

end

/-! ## Repetitions -/

namespace Cardinality

variable {c : Cardinality} {src : Source}

/-- A run is stopped by an occurrence that fails, unless it was cut off before. -/
theorem Calls.stops {occurrence : Nat → Reply GroupDiagnosis Forest} {done p q r : Nat}
    {d : GroupDiagnosis} (h : c.Calls occurrence done p q) (hd : occurrence q = .failure d r) :
    ∀ bound, c.runFrom (fun _ => occurrence) bound done p = .unfinished ∨
      ∃ run, c.runFrom (fun _ => occurrence) bound done p = .success run r ∧
        run.ending = .stopped d := by
  induction h with
  | here room =>
      intro bound
      cases bound with
      | zero => simp [runFrom, room]
      | succ bound => simp [runFrom, room, hd]
  | @later done p m q f room step moved _ ih =>
      intro bound
      cases bound with
      | zero => simp [runFrom, room]
      | succ bound =>
          rw [runFrom]
          simp only [room, Bool.false_eq_true, if_false, step, moved]
          rcases ih hd bound with hrun | ⟨run, hrun, hend⟩
          · simp [hrun, Reply.map]
          · exact Or.inr ⟨run.after f, by simp [hrun, Reply.map], hend⟩

/-- An occurrence that committed tokens is never passed over, however many were
recognized before. -/
theorem Calls.fails {bound : Nat} {path : Path} {r : ForestRecognizer} {p q m : Nat}
    {d : GroupDiagnosis} (h : c.Calls (r path) 0 p q) (hr : r path q = .failure d m)
    (hd : d.cause.isIncomplete = true) (hp : p ≤ src.size)
    (hfinished : c.repeating src bound (fun _ => r) path p ≠ .unfinished) :
    ∃ n, c.repeating src bound (fun _ => r) path p = .failure (d.withCount n) p := by
  unfold repeating at hfinished ⊢
  rcases h.stops hr bound with hrun | ⟨run, hrun, hend⟩
  · rw [hrun] at hfinished
    exact absurd rfl hfinished
  · refine ⟨run.occurrences + d.count, ?_⟩
    simp only [hrun, judge, hend, hd, true_or, if_true, Reply.restoring, Source.seek_of_le hp,
      Reply.check_ok]

end Cardinality

/-! ## Sets -/

namespace Quorum

variable {s : Quorum} {path : Path} {n start taken : Nat} {tried members : List Member}
variable {best : Candidate} {m : Member} {q : Nat}

/-- A member that committed tokens ends the search wherever it is tried. -/
theorem Tries.fails {d : GroupDiagnosis} {t : Nat}
    (h : s.Tries path n start taken tried members best m q)
    (horderly : ∀ m ∈ tried.reverse ++ members, ForestRecognizer.Orderly s.source m.recognizer)
    (hstart : start ≤ s.source.size) (hm : m.recognizer path q = .failure d t)
    (hd : d.cause.isIncomplete = true) :
    ∃ k, s.explore (s.search path n) path start taken tried members best start =
      .failure (d.withCount k) start := by
  induction h with
  | @here n start taken tried rest best m =>
      obtain rfl := (horderly m (by simp) path start hstart).returns d t hm
      exact ⟨taken + d.count, by simp [explore, hm, hd]⟩
  | @behind n start taken q r tried rest best m m' f first reads _ ih =>
      obtain ⟨-, hq, -⟩ := (horderly m (by simp) path start hstart).advances f q first
      have hothers : ∀ m' ∈ ([] : List Member).reverse ++ (tried.reverse ++ rest),
          ForestRecognizer.Orderly s.source m'.recognizer := fun m' hm' => horderly m'
        (((List.sublist_cons_self m rest).append_left _).subset (by simpa using hm'))
      obtain ⟨k, hk⟩ := ih hothers hq hm
      refine ⟨k, ?_⟩
      simp [explore, search, first, reads, hk, Source.seek_of_le hstart]
  | failed first uncommitted _ ih =>
      obtain ⟨k, hk⟩ := ih (by simpa using horderly) hstart hm
      obtain rfl := (horderly _ (by simp) path _ hstart).returns _ _ first
      exact ⟨k, by simp [explore, first, uncommitted, hk]⟩
  | @idle n start taken q r tried rest best m m' f first idle _ ih =>
      obtain ⟨k, hk⟩ := ih (by simpa using horderly) hstart hm
      obtain ⟨hq, -, -⟩ := (horderly m (by simp) path start hstart).advances f q first
      obtain rfl : q = start := by omega
      exact ⟨k, by simp [explore, first, hk]⟩
  | worse first reads found worse _ ih =>
      obtain ⟨k, hk⟩ := ih (by simpa using horderly) hstart hm
      exact ⟨k, by simp [explore, first, reads, found, worse, hk, Source.seek_of_le hstart]⟩
  | better first reads found better some_left _ ih =>
      obtain ⟨k, hk⟩ := ih (by simpa using horderly) hstart hm
      refine ⟨k, ?_⟩
      simp [explore, first, reads, found, better, some_left, hk, Source.seek_of_le hstart]

end Quorum

section

variable {scope : Scope} {path : Path} {g : Group} {e : Element} {p q : Nat}
variable (helements : ∀ e : Element, ForestRecognizer.Orderly scope.source (e.recognizer scope))

include helements

/-- A group fails with an element that committed tokens. -/
theorem Group.Calls.fails {d : GroupDiagnosis} {m : Nat} (h : g.Calls scope path p e q)
    (hp : p ≤ scope.source.size) (he : e.recognizer scope path q = .failure d m)
    (hd : d.cause.isIncomplete = true) :
    ∃ n, g.recognizer scope path p = .failure (d.withCount n) p := by
  cases h with
  | @sequence pre post _ ns _ _ before =>
      rw [recognizer_sequence, List.map_append, List.map_cons]
      exact ⟨_, before.sequence_fails hp he (post.map (Element.recognizer scope))⟩
  | @choice pre post _ _ _ before =>
      have hfails := before.fails he hd (post.map (Element.recognizer scope)) none
      have hq := before.stays (List.forall_mem_map.mpr fun e _ => helements e) hp
      obtain rfl : m = p := ((helements e path q (hq ▸ hp)).returns d m he).trans hq
      refine ⟨d.count, ?_⟩
      rw [recognizer_choice, List.map_append, List.map_cons, ConcreteSyntax.choice, hfails]
      rfl
  | @set minimum elements _ n _ _ count _ tried =>
      have hmembers := members_orderly fun e (_ : e ∈ elements) => helements e
      obtain ⟨k, hk⟩ := tried.fails hmembers hp he hd
      refine ⟨k, ?_⟩
      simp only [Quorum.ofElements, count] at hk
      rw [recognizer_set]
      simp only [anyOrder, Element.length_members, count, Quorum.search, hk, Reply.bind_failure,
        Reply.restoring, Source.seek_of_le hp, Reply.check_ok]

end

/-! ## Attempts -/

/-- A reply of a group, with the count of its elements forgotten. -/
def Reply.uncounted (r : Reply GroupDiagnosis Forest) : Reply Diagnosis (List Node) :=
  (r.map Forest.nodes).mapFailure GroupDiagnosis.cause

namespace Language

variable (l : Language) (src : Source)

/-- What comes of an attempt: nodes or the reason why there are none. -/
def reply (a : Attempt) : Reply Diagnosis (List Node) :=
  match a.task with
  | .symbol symbol => ((l.fullScope src).production symbol a.path a.position).map fun n => [n]
  | .production r =>
    (r.recognizer (l.validators r.symbol) (l.fullScope src) a.path a.position).map fun n => [n]
  | .rule r => (r.recognizer (l.fullScope src) a.path a.position).map fun n => [n]
  | .group g => (g.recognizer (l.fullScope src) a.path a.position).uncounted
  | .element e => (e.recognizer (l.fullScope src) a.path a.position).uncounted
  | .occurrence k => (k.recognizer (l.fullScope src) a.path a.position).uncounted

end Language

theorem Reply.uncounted_eq_success_iff {r : Reply GroupDiagnosis Forest} {ns : List Node}
    {q : Nat} : r.uncounted = .success ns q ↔ ∃ f, r = .success f q ∧ f.nodes = ns := by
  cases r with
  | success f p =>
      simp only [uncounted, map, mapFailure, success.injEq]
      constructor
      · rintro ⟨rfl, rfl⟩
        exact ⟨f, ⟨rfl, rfl⟩, rfl⟩
      · rintro ⟨_, ⟨rfl, rfl⟩, rfl⟩
        exact ⟨rfl, rfl⟩
  | _ => simp [uncounted, map, mapFailure]

theorem Reply.uncounted_eq_failure_iff {r : Reply GroupDiagnosis Forest} {e : Diagnosis} {q : Nat} :
    r.uncounted = .failure e q ↔ ∃ d, r = .failure d q ∧ d.cause = e := by
  cases r with
  | failure d p =>
      simp only [uncounted, map, mapFailure, failure.injEq]
      constructor
      · rintro ⟨rfl, rfl⟩
        exact ⟨d, ⟨rfl, rfl⟩, rfl⟩
      · rintro ⟨_, ⟨rfl, rfl⟩, rfl⟩
        exact ⟨rfl, rfl⟩
  | _ => simp [uncounted, map, mapFailure]

theorem Reply.map_eq_failure_iff {ε α β : Type} {view : α → β} {r : Reply ε α} {e : ε} {q : Nat} :
    r.map view = .failure e q ↔ r = .failure e q := by
  cases r <;> simp [map]

/-- A promotion never hides tokens that were committed further down. -/
theorem Composite.conclude_of_isIncomplete (r : Composite) (path : Path) (start : Nat)
    {d : GroupDiagnosis} (hd : d.cause.isIncomplete = true) :
    r.conclude path start d = d.cause := by
  have hfailed : d.cause.isFailed = false := by
    rw [← Bool.not_eq_true, ← Diagnosis.isIncomplete_eq_false_iff, hd]
    simp
  unfold conclude
  cases r.threshold <;> simp [hfailed]

namespace Language

variable {l : Language} {src : Source} {a b : Attempt}

/-- An attempt that fails leaves the cursor where it was entered. -/
theorem reply_returns (ha : a.position ≤ src.size) {e : Diagnosis} {q : Nat}
    (h : l.reply src a = .failure e q) : q = a.position := by
  obtain ⟨task, path, p⟩ := a
  have hsource : (l.fullScope src).source = src := l.scope_source src _
  have hp : p ≤ (l.fullScope src).source.size := hsource.symm ▸ ha
  have horderly := l.scope_orderly src (l.stage src)
  obtain ⟨hkinds, helements⟩ := Kind.recognizer_orderly horderly
  cases task with
  | symbol symbol =>
      exact (horderly symbol path p hp).returns e q (Reply.map_eq_failure_iff.mp h)
  | production r =>
      exact (r.recognizer_orderly _ horderly path p hp).returns e q (Reply.map_eq_failure_iff.mp h)
  | rule r =>
      exact (r.recognizer_orderly horderly path p hp).returns e q (Reply.map_eq_failure_iff.mp h)
  | group g =>
      obtain ⟨d, hd, -⟩ := Reply.uncounted_eq_failure_iff.mp h
      exact (g.recognizer_orderly horderly path p hp).returns d q hd
  | element e =>
      obtain ⟨d, hd, -⟩ := Reply.uncounted_eq_failure_iff.mp h
      exact (helements e path p hp).returns d q hd
  | occurrence k =>
      obtain ⟨d, hd, -⟩ := Reply.uncounted_eq_failure_iff.mp h
      exact (hkinds k path p hp).returns d q hd

/-- **One call.** An attempt fails with any it makes that committed tokens, for the same
reason. -/
theorem Calls.fails {root : String} {productions : List Production}
    (hbuild : Grammar.build root productions = .ok l.grammar) (h : l.Calls src a b)
    (ha : a.position ≤ src.size) {e : Diagnosis} {q : Nat} (hb : l.reply src b = .failure e q)
    (he : e.isIncomplete = true) : l.reply src a = .failure e a.position := by
  have hback : q = b.position := reply_returns (h.inside ha) hb
  have hsource : (l.fullScope src).source = src := l.scope_source src _
  have hscope : a.position ≤ (l.fullScope src).source.size := hsource.symm ▸ ha
  cases h with
  | @production symbol r path p found =>
      have hsymbol : r.symbol = symbol := Grammar.symbol_of_find? found
      have hcalled : (l.fullScope src).production symbol path p =
          r.recognizer (l.validators r.symbol) (l.fullScope src) path p := by
        rw [l.fullScope_production hbuild ha, Language.production, found, hsymbol]
      rw [reply, Reply.map_eq_failure_iff] at hb ⊢
      rw [hcalled, hb, hback]
  | rule r path p =>
      rw [reply, Reply.map_eq_failure_iff] at hb ⊢
      rw [Production.recognizer, hb, Reply.bind_failure, hback]
  | group r path p =>
      rw [reply, Reply.uncounted_eq_failure_iff] at hb
      obtain ⟨d, hd, rfl⟩ := hb
      rw [reply, Reply.map_eq_failure_iff, Rule.recognizer, Composite.recognizer, hd, hback]
      simp only [if_true, r.conclude_of_isIncomplete path _ he]
  | @element g e' path p m called =>
      rw [reply, Reply.uncounted_eq_failure_iff] at hb ⊢
      obtain ⟨d, hd, rfl⟩ := hb
      have horderly := l.scope_orderly src (l.stage src)
      obtain ⟨n, hn⟩ := called.fails (Kind.recognizer_orderly horderly).2 hscope hd he
      exact ⟨d.withCount n, hn, rfl⟩
  | @occurrence k c path p m called =>
      rw [reply, Reply.uncounted_eq_failure_iff] at hb ⊢
      obtain ⟨d, hd, rfl⟩ := hb
      have hfinishes : l.Finishes src (l.stage src) p :=
        l.finishes_of_stage_le hbuild (Nat.le_refl _) ha
      have hfinished := hfinishes.element (.mk k c) path
      rw [Element.recognizer_mk] at hfinished ⊢
      obtain ⟨n, hn⟩ := called.fails hd he hscope hfinished
      exact ⟨d.withCount n, hn, rfl⟩
  | reference symbol path p =>
      rw [reply, Reply.map_eq_failure_iff] at hb
      simp only [reply, Kind.recognizer, hb, hback]
      rfl
  | terminal t path p =>
      rw [reply, Reply.map_eq_failure_iff, Rule.recognizer] at hb
      simp only [reply, Kind.recognizer, hb, hback]
      rfl
  | nested a es path p =>
      rw [reply, Reply.uncounted_eq_failure_iff] at hb ⊢
      obtain ⟨d, hd, rfl⟩ := hb
      rw [← Group.recognizer_toKind] at hd
      exact ⟨d, hback ▸ hd, rfl⟩

end Language

/-- **Commitment.** In a grammar without violations, whatever validators there are,
let an attempt make another, directly or through any it makes. If that one fails after
it committed tokens, so does the first, where it was entered and for the very same
reason. -/
theorem incomplete_surfaces {root : String} {productions : List Production} {l : Language}
    (hbuild : Grammar.build root productions = .ok l.grammar) {src : Source} {a b : Attempt}
    (ha : a.position ≤ src.size) (hmakes : Relation.ReflTransGen (l.Calls src) a b)
    {e : Diagnosis} {q : Nat} (hb : l.reply src b = .failure e q) (he : e.isIncomplete = true) :
    l.reply src a = .failure e a.position := by
  induction hmakes using Relation.ReflTransGen.head_induction_on with
  | refl =>
      have hback : q = b.position := Language.reply_returns ha hb
      rw [hb, hback]
  | head first _ ih =>
      have hfirst := ih (first.inside ha)
      exact first.fails hbuild ha hfirst he

/-- A pair of letters, which once the first is read has to be completed, or a letter. -/
def pairOrLetter : List Element := [.mk (.reference "pair") .once, .mk (.character 'a') .once]

/-- Any number of letters and pairs. -/
def stepLanguage : Language := .ofGrammar ⟨"steps",
  [⟨"steps", .composite ⟨⟨.sequence,
      [.mk (.group .choice pairOrLetter) .zeroOrMore]⟩, none⟩, none⟩,
    ⟨"pair", .composite ⟨⟨.sequence, [.mk (.character 'a') .once, .mk (.character 'b') .once]⟩,
      some 1⟩, none⟩]⟩

/-- Behind a pair, a second pair is begun and not completed. Neither the letter that
could stand for it nor the repetition, which has enough, makes up for that. -/
theorem incomplete_surfaces_steps :
    Grammar.build "steps" stepLanguage.grammar.productions = .ok stepLanguage.grammar ∧
      0 ≤ (Source.ofString "aba").size ∧
      Relation.ReflTransGen (stepLanguage.Calls (Source.ofString "aba"))
        ⟨.symbol "steps", .root "steps", 0⟩
        ⟨.symbol "pair", (Path.root "steps").child "pair", 2⟩ ∧
      ∃ e : Diagnosis,
        stepLanguage.reply (Source.ofString "aba")
            ⟨.symbol "pair", (Path.root "steps").child "pair", 2⟩ = .failure e 2 ∧
          e.isIncomplete = true ∧
          stepLanguage.reply (Source.ofString "aba") ⟨.symbol "steps", .root "steps", 0⟩ =
            .failure e 0 := by
  have hbuild : Grammar.build "steps" stepLanguage.grammar.productions =
    .ok stepLanguage.grammar := rfl
  -- the second occurrence is called where the first, a whole pair, has ended
  have hsecond : Cardinality.zeroOrMore.Calls ((Kind.group .choice pairOrLetter).recognizer
      (stepLanguage.fullScope (Source.ofString "aba")) (.root "steps")) 0 0 2 :=
    .later rfl rfl (by decide) (.here rfl)
  have honly : Cardinality.once.Calls ((Kind.reference "pair").recognizer
      (stepLanguage.fullScope (Source.ofString "aba")) (.root "steps")) 0 2 2 := .here rfl
  have hfirst : Group.Calls (stepLanguage.fullScope (Source.ofString "aba")) (.root "steps")
      ⟨.sequence, [] ++ [.mk (.group .choice pairOrLetter) .zeroOrMore]⟩ 0 _ 0 := .sequence (.nil 0)
  have halternative : Group.Calls (stepLanguage.fullScope (Source.ofString "aba")) (.root "steps")
      ⟨.choice, [] ++ pairOrLetter⟩ 2 _ 2 := .choice (.nil 2)
  have hmakes : Relation.ReflTransGen (stepLanguage.Calls (Source.ofString "aba"))
      ⟨.symbol "steps", .root "steps", 0⟩
      ⟨.symbol "pair", (Path.root "steps").child "pair", 2⟩ :=
    .head (.production rfl) <| .head (.rule _ _ _) <| .head (.group _ _ _) <|
      .head (.element hfirst) <| .head (.occurrence hsecond) <| .head (.nested _ _ _ _) <|
      .head (.element halternative) <| .head (.occurrence honly) <| .single (.reference _ _ _)
  have hpair : ∃ e : Diagnosis, stepLanguage.reply (Source.ofString "aba")
      ⟨.symbol "pair", (Path.root "steps").child "pair", 2⟩ = .failure e 2 ∧
        e.isIncomplete = true := ⟨_, rfl, rfl⟩
  obtain ⟨e, hb, he⟩ := hpair
  exact ⟨hbuild, by decide, hmakes, e, hb, he,
    incomplete_surfaces hbuild (by decide) hmakes hb he⟩

end ConcreteSyntax
