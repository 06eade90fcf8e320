import ConcreteSyntax.Proofs.Terminal.Delimitation

/-!
# Delimited content with its sequences and ranges in another order

What content may be is a matter of which sequences and ranges there are, and so is, as
far as it is determined at all, where content ends. It is not determined in one place
only: two barred sequences that end at one token are both there to be given back, and
the rule gives back the one that it was told of first.
-/

namespace ConcreteSyntax

namespace Delimited.Options

/-- The options differ in nothing but the order of their sequences and of their ranges. -/
structure Permuted (o o' : Options) : Prop where
  start : o.start = o'.start
  stop : o.stop = o'.stop
  legalSequences : o.legalSequences.Perm o'.legalSequences
  illegalSequences : o.illegalSequences.Perm o'.illegalSequences
  legalRanges : o.legalRanges.Perm o'.legalRanges
  illegalRanges : o.illegalRanges.Perm o'.illegalRanges
  escape : o.escape = o'.escape
  acceptsEmpty : o.acceptsEmpty = o'.acceptsEmpty

variable {o o' : Options} {src : Source} {start stop stop' p q : Nat} {s t : List Char}

/-! ## What content may be -/

theorem eq_nil_iff_of_perm {α : Type} {xs ys : List α} (h : xs.Perm ys) : xs = [] ↔ ys = [] := by
  rw [← List.length_eq_zero_iff, h.length_eq, List.length_eq_zero_iff]

namespace Permuted

variable (h : o.Permuted o')

include h

theorem admits_iff {c : Char} : o.Admits c ↔ o'.Admits c := by
  simp only [Admits, h.legalRanges.mem_iff, h.illegalRanges.mem_iff,
    eq_nil_iff_of_perm h.legalRanges]

theorem bars_iff : o.Bars s ↔ o'.Bars s := by
  rw [Bars, Bars, (h.illegalSequences.map _).mem_iff, h.stop]

theorem shields_iff : o.Shields src start p q ↔ o'.Shields src start p q := by
  rw [Shields, Shields, h.escape]

theorem symm : o'.Permuted o :=
  ⟨h.start.symm, h.stop.symm, h.legalSequences.symm, h.illegalSequences.symm,
    h.legalRanges.symm, h.illegalRanges.symm, h.escape.symm, h.acceptsEmpty.symm⟩

theorem breach (hb : o.Breach src start p s) : o'.Breach src start p s where
  barred := h.bars_iff.mp hb.barred
  start_le := hb.start_le
  occurs := hb.occurs
  unshielded := mt h.shields_iff.mpr hb.unshielded

theorem mem_legalSequences_iff :
    s ∈ o.legalSequences.map String.toList ↔ s ∈ o'.legalSequences.map String.toList :=
  (h.legalSequences.map _).mem_iff

theorem longest (hs : o.Longest src p s) : o'.Longest src p s where
  legal := h.mem_legalSequences_iff.mp hs.legal
  occurs := hs.occurs
  longest t ht := hs.longest t (h.mem_legalSequences_iff.mpr ht)

theorem splits (hs : o.Splits src start p) : o'.Splits src start p := by
  induction hs with
  | nil => exact .nil
  | snoc _ longest ih => exact ih.snoc (h.longest longest)

theorem tokensEnd (hend : o.TokensEnd src start p) : o'.TokensEnd src start p := by
  cases hend with
  | exhausted noToken => exact .exhausted noToken
  | refused token illegal => exact .refused token (mt h.admits_iff.mpr illegal)
  | breached breach legal first =>
      exact .breached (h.breach breach) (fun c hc => h.admits_iff.mp (legal c hc))
        fun q t hq => first q t (h.symm.breach hq)

theorem sequencesEnd (hend : o.SequencesEnd src start p) : o'.SequencesEnd src start p := by
  cases hend with
  | exhausted noSequence =>
      exact .exhausted fun s hs => noSequence s (h.mem_legalSequences_iff.mpr hs)
  | refused next member illegal =>
      exact .refused (h.longest next) member (mt h.admits_iff.mpr illegal)
  | breached next breach behind within =>
      exact .breached (h.longest next) (h.breach breach) behind within

/-- Content of the one is content of the other. -/
theorem readsTo (hread : o.ReadsTo src start stop) : o'.ReadsTo src start stop where
  start_le_stop := hread.start_le_stop
  stop_le_size := hread.stop_le_size
  admitted c hc := h.admits_iff.mp (hread.admitted c hc)
  intact p s hbreach := hread.intact p s (h.symm.breach hbreach)
  tokens hnil := h.tokensEnd (hread.tokens ((eq_nil_iff_of_perm h.legalSequences).mpr hnil))
  sequences hsome :=
    have ⟨hsplits, hend⟩ := hread.sequences (mt (eq_nil_iff_of_perm h.legalSequences).mp hsome)
    ⟨h.splits hsplits, h.sequencesEnd hend⟩

theorem closes_iff : o.Closes src start stop ↔ o'.Closes src start stop := by
  rw [Closes, Closes, h.acceptsEmpty, h.stop]

theorem closing : o.closing = o'.closing := by
  rw [Options.closing, Options.closing, h.stop]

/-- The same is wrong with both, if anything is. -/
theorem build_eq_error_iff {e : RuleError} : build o = .error e ↔ build o' = .error e := by
  have hlegal : ([] : List Char) ∈ o.legalSequences.map String.toList ↔
      [] ∈ o'.legalSequences.map String.toList := (h.legalSequences.map _).mem_iff
  have hillegal : ([] : List Char) ∈ o.illegalSequences.map String.toList ↔
      [] ∈ o'.illegalSequences.map String.toList := (h.illegalSequences.map _).mem_iff
  simp only [build, h.start, h.stop, h.escape, hlegal, hillegal,
    eq_nil_iff_of_perm (h.illegalSequences.map String.toList),
    eq_nil_iff_of_perm h.illegalRanges]
  split_ifs <;> simp

end Permuted

/-! ## Where content ends -/

/-- Two barred sequences end at one token, before which no other does, in content that is
read token by token. The one begins where the other has begun already. -/
structure Contest (o : Options) (src : Source) (start p q : Nat) (s t : List Char) : Prop where
  tokens : o.legalSequences = []
  longer : o.Breach src start p s
  shorter : o.Breach src start q t
  lt : p < q
  together : p + s.length = q + t.length
  admitted : ∀ c ∈ src.slice start (p + s.length), o.Admits c
  first : ∀ r u, o.Breach src start r u → p + s.length ≤ r + u.length

/-- One of the two is the end of the other. -/
theorem Contest.suffix (h : o.Contest src start p q s t) : t <:+ s ∧ t ≠ s := by
  have hlonger := h.longer.occurs
  have hshorter := h.shorter.occurs
  have hlt := h.lt
  have htogether := h.together
  rw [Source.Occurs, Source.slice_append (Nat.le_of_lt hlt) (by omega), htogether,
    hshorter] at hlonger
  refine ⟨⟨_, hlonger⟩, ?_⟩
  rintro rfl
  omega

/-- Content goes on from one position to the other by one legal sequence. -/
def Follows (o : Options) (src : Source) (p q : Nat) : Prop :=
  ∃ s, o.Longest src p s ∧ q = p + s.length

theorem Longest.eq (hs : o.Longest src p s) (ht : o.Longest src p t) : s = t := by
  have hlength := Nat.le_antisymm (ht.longest s hs.legal hs.occurs)
    (hs.longest t ht.legal ht.occurs)
  have hs' := hs.occurs
  rw [Source.Occurs, hlength, ht.occurs] at hs'
  exact hs'.symm

theorem follows_rightUnique : Relator.RightUnique (o.Follows src) := by
  rintro p _ _ ⟨s, hs, rfl⟩ ⟨t, ht, rfl⟩
  rw [hs.eq ht]

theorem Splits.reaches (h : o.Splits src start p) :
    Relation.ReflTransGen (o.Follows src) start p := by
  induction h with
  | nil => exact .refl
  | snoc _ longest ih => exact ih.tail ⟨_, longest, rfl⟩

theorem le_of_reaches (h : Relation.ReflTransGen (o.Follows src) p q) : p ≤ q := by
  induction h with
  | refl => exact Nat.le_refl p
  | tail _ next ih =>
      obtain ⟨s, -, rfl⟩ := next
      exact Nat.le_trans ih (Nat.le_add_right _ _)

/-- Content that cannot go on sequence by sequence does not. -/
theorem SequencesEnd.eq_of_reaches (hend : o.SequencesEnd src start stop) (hle : start ≤ stop)
    (h : Relation.ReflTransGen (o.Follows src) stop stop') (h' : o.ReadsTo src start stop') :
    stop = stop' := by
  rcases h.cases_head with rfl | ⟨_, ⟨s, hs, rfl⟩, hrest⟩
  · rfl
  have hstop := le_of_reaches hrest
  cases hend with
  | exhausted noSequence => exact absurd hs.occurs (noSequence s hs.legal)
  | @refused t c next member illegal =>
      obtain rfl := next.eq hs
      have hmem : c ∈ src.slice stop (stop + t.length) := by rwa [hs.occurs]
      have hmem' : c ∈ src.slice stop stop' :=
        (Source.mem_slice_append (Nat.le_add_right _ _) hstop).mpr (.inl hmem)
      exact absurd (h'.admitted c ((Source.mem_slice_append hle
        (Nat.le_trans (Nat.le_add_right _ _) hstop)).mpr (.inr hmem'))) illegal
  | breached next breach _ within =>
      obtain rfl := next.eq hs
      have := h'.intact _ _ breach
      omega

/-- Token by token, content ends at two positions only if they are contested. -/
theorem ReadsTo.contest_of_lt (h : o.ReadsTo src start stop) (h' : o.ReadsTo src start stop')
    (hmode : o.legalSequences = []) (hlt : stop < stop') :
    ∃ s t, o.Contest src start stop stop' s t := by
  have hle := h.start_le_stop
  have hsize := h'.stop_le_size
  cases h.tokens hmode with
  | exhausted noToken => omega
  | @refused c token illegal =>
      have hmem : c ∈ src.slice stop stop' := by
        rw [Source.slice_cons token hlt]
        exact List.mem_cons_self
      exact absurd (h'.admitted c ((Source.mem_slice_append hle
        (Nat.le_of_lt hlt)).mpr (.inr hmem))) illegal
  | @breached s breach legal first =>
      have hwithin := h'.intact _ _ breach
      have hend := Source.le_size_of_slice_eq h.stop_le_size breach.occurs
      cases h'.tokens hmode with
      | exhausted noToken => omega
      | @refused c token illegal =>
          -- the token refused is one of the sequence given back
          have hmem : c ∈ src.slice stop (stop + s.length) := by
            rw [Source.slice_append (Nat.le_of_lt hlt) (Nat.le_of_lt hwithin),
              Source.slice_cons token hwithin]
            simp
          rw [breach.occurs] at hmem
          exact absurd (legal c hmem) illegal
      | @breached t breach' _ first' =>
          refine ⟨s, t, hmode, breach, breach', hlt,
            Nat.le_antisymm (first _ _ breach') (first' _ _ breach), fun c hc => ?_, first⟩
          rw [Source.mem_slice_append hle (Nat.le_add_right _ _), breach.occurs] at hc
          exact hc.elim (h.admitted c) (legal c)

/-- **Ends.** Content ends at one position, unless that is contested. -/
theorem ReadsTo.eq_or_contest (h : o.ReadsTo src start stop) (h' : o.ReadsTo src start stop') :
    stop = stop' ∨ ∃ p q s t, o.Contest src start p q s t := by
  by_cases hmode : o.legalSequences = []
  · rcases Nat.lt_trichotomy stop stop' with hlt | heq | hlt
    · exact Or.inr ⟨_, _, h.contest_of_lt h' hmode hlt⟩
    · exact Or.inl heq
    · exact Or.inr ⟨_, _, h'.contest_of_lt h hmode hlt⟩
  · obtain ⟨hsplits, hend⟩ := h.sequences hmode
    obtain ⟨hsplits', hend'⟩ := h'.sequences hmode
    rcases hsplits.reaches.total_of_right_unique follows_rightUnique hsplits'.reaches with
      hreach | hreach
    · exact Or.inl (hend.eq_of_reaches h.start_le_stop hreach h')
    · exact Or.inl (hend'.eq_of_reaches h'.start_le_stop hreach h).symm

end Delimited.Options

/-- **Rearranged options.** If two lists of options differ only in the order of their
sequences and ranges, the same is wrong with both, or both are built. Then the two rules
give one answer wherever they are entered, and leave the cursor at one position, except
behind a start delimiter where two barred sequences end at one token and the content is
read token by token. That cannot happen if no barred sequence is the end of another. -/
theorem permuted_content_agrees {o o' : Delimited.Options} (h : o.Permuted o') :
    (∀ e, Delimited.build o = .error e ↔ Delimited.build o' = .error e) ∧
      ∀ d d', Delimited.build o = .ok d → Delimited.build o' = .ok d' →
        ∀ (src : Source) (path : Path) (p : Nat), p ≤ src.size →
          (d.recognize src path p = d'.recognize src path p ∨ src.Occurs p o.start.toList ∧
            ∃ q r s t, o.Contest src (p + o.start.toList.length) q r s t) ∧
          ((∀ s t, o.Bars s → o.Bars t → t <:+ s → t = s) →
            d.recognize src path p = d'.recognize src path p) := by
  refine ⟨fun e => h.build_eq_error_iff, fun d d' hd hd' src path p hp => ?_⟩
  have hagree : d.recognize src path p = d'.recognize src path p ∨
      src.Occurs p o.start.toList ∧
        ∃ q r s t, o.Contest src (p + o.start.toList.length) q r s t := by
    rcases (Delimited.Options.built_of_build hd).recognize_cases path hp with
      ⟨hopen, hr⟩ | ⟨hopen, _, stop, rfl, -, hread, hr⟩ <;>
    rcases (Delimited.Options.built_of_build hd').recognize_cases path hp with
      ⟨hopen', hr'⟩ | ⟨hopen', _, stop', rfl, -, hread', hr'⟩
    · exact Or.inl (hr.trans hr'.symm)
    · exact absurd (h.start ▸ hopen') hopen
    · exact absurd (h.start ▸ hopen) hopen'
    · rw [← h.start] at hread' hr'
      rcases hread.eq_or_contest (h.symm.readsTo hread') with rfl | hcontest
      · -- one end of content, so one answer
        rw [← h.closes_iff, ← h.closing] at hr'
        rcases hr with ⟨hcloses, hr⟩ | ⟨hopen, hr⟩
        · exact Or.inl (hr.trans (hr'.resolve_right fun h => h.1 hcloses).2.symm)
        · exact Or.inl (hr.trans (hr'.resolve_left fun h => hopen h.1).2.symm)
      · exact Or.inr ⟨hopen, hcontest⟩
  refine ⟨hagree, fun hends => hagree.resolve_right ?_⟩
  rintro ⟨-, q, r, s, t, hcontest⟩
  obtain ⟨hsuffix, hne⟩ := hcontest.suffix
  exact hne (hends s t hcontest.longer.barred hcontest.shorter.barred hsuffix)

/-- A comment up to the first of the sequences that end a line. -/
def lineOptions (ends : List String) : Delimited.Options where
  start := "#"
  stop := none
  legalSequences := []
  illegalSequences := ends
  legalRanges := []
  illegalRanges := []
  escape := none
  acceptsEmpty := true

/-- The rule that is built from these options. -/
def lineRule (ends : List (List Char)) (hends : ∀ s ∈ ends, s ≠ []) : Delimited where
  start := ['#']
  stop := none
  legalSequences := []
  illegalSequences := ends
  legalRanges := .empty
  illegalRanges := .empty
  escape := none
  acceptsEmpty := true
  start_ne_nil := by simp
  legal_ne_nil := Delimited.ne_nil_of_mem_nil
  illegal_ne_nil := hends
  stop_mem_illegal := by simp

theorem lineOptions_permuted {ends ends' : List String} (h : ends.Perm ends') :
    (lineOptions ends).Permuted (lineOptions ends') :=
  ⟨rfl, rfl, .nil, h, .nil, .nil, rfl, rfl⟩

theorem build_line {ends : List String} (hne : ends ≠ [])
    (hends : ∀ s ∈ ends.map String.toList, s ≠ []) :
    Delimited.build (lineOptions ends) = .ok (lineRule (ends.map String.toList) hends) := by
  have hnil : "" ∉ ends := fun h => hends _ (List.mem_map_of_mem h) rfl
  simp [Delimited.build, lineOptions, lineRule, Delimited.longestFirst, Delimited.dropRepeats,
    Delimited.withStop, RangeSet.ofList, CharRange.normalize, RangeSet.empty, hne, hnil]

/-- The line feed ends the carriage return before it, too. Which of the two is given back
depends on which of them comes first in the options. -/
theorem permuted_content_disagrees :
    (lineOptions ["\n", "\r\n"]).Permuted (lineOptions ["\r\n", "\n"]) ∧
      Delimited.build (lineOptions ["\n", "\r\n"]) =
        .ok (lineRule [['\n'], ['\r', '\n']] (by simp)) ∧
      Delimited.build (lineOptions ["\r\n", "\n"]) =
        .ok (lineRule [['\r', '\n'], ['\n']] (by simp)) ∧
      (lineRule [['\n'], ['\r', '\n']] (by simp)).recognize (Source.ofString "#a\r\n")
        (.root "line") 0 = .success (.atom "line" ⟨1, 2⟩) 3 ∧
      (lineRule [['\r', '\n'], ['\n']] (by simp)).recognize (Source.ofString "#a\r\n")
        (.root "line") 0 = .success (.atom "line" ⟨1, 1⟩) 2 := by
  exact ⟨lineOptions_permuted (.swap _ _ _), build_line (by simp) (by simp),
    build_line (by simp) (by simp), rfl, rfl⟩

/-- No end of a line ends with the other. -/
theorem permuted_content_agrees_line :
    (lineOptions ["\n", ";"]).Permuted (lineOptions [";", "\n"]) ∧
      Delimited.build (lineOptions ["\n", ";"]) = .ok (lineRule [['\n'], [';']] (by simp)) ∧
      Delimited.build (lineOptions [";", "\n"]) = .ok (lineRule [[';'], ['\n']] (by simp)) ∧
      0 ≤ (Source.ofString "#a;\n").size ∧
      (∀ s t, (lineOptions ["\n", ";"]).Bars s → (lineOptions ["\n", ";"]).Bars t → t <:+ s →
        t = s) ∧
      (lineRule [['\n'], [';']] (by simp)).recognize (Source.ofString "#a;\n") (.root "line") 0 =
        (lineRule [[';'], ['\n']] (by simp)).recognize (Source.ofString "#a;\n")
          (.root "line") 0 := by
  have hpermuted : (lineOptions ["\n", ";"]).Permuted (lineOptions [";", "\n"]) :=
    lineOptions_permuted (.swap _ _ _)
  have hbuild : Delimited.build (lineOptions ["\n", ";"]) =
      .ok (lineRule [['\n'], [';']] (by simp)) := build_line (by simp) (by simp)
  have hbuild' : Delimited.build (lineOptions [";", "\n"]) =
      .ok (lineRule [[';'], ['\n']] (by simp)) := build_line (by simp) (by simp)
  have hends : ∀ s t, (lineOptions ["\n", ";"]).Bars s → (lineOptions ["\n", ";"]).Bars t →
      t <:+ s → t = s := by
    rintro s t (hs | ⟨⟨⟩⟩) (ht | ⟨⟨⟩⟩)
    simp only [lineOptions, List.map_cons, List.map_nil, List.mem_cons, List.not_mem_nil,
      or_false] at hs ht
    rcases hs with rfl | rfl <;> rcases ht with rfl | rfl <;> decide
  exact ⟨hpermuted, hbuild, hbuild', Nat.zero_le _, hends,
    ((permuted_content_agrees hpermuted).2 _ _ hbuild hbuild' _ (.root "line") 0
      (Nat.zero_le _)).2 hends⟩

end ConcreteSyntax
