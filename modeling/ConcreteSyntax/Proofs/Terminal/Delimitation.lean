import ConcreteSyntax.Proofs.CharRanges
import ConcreteSyntax.Proofs.Terminal.Reading

/-!
# What delimited content is

A rule for delimited content is built from delimiters, sequences and ranges of
characters, given in any order and however they overlap. What it reads is said here in
these terms alone. Content holds admitted tokens only, and every barred sequence that
occurs from its start on is shielded by the escape or ends behind it. Where content
ends is not a matter of choice: token by token it goes on until it cannot, and sequence
by sequence it is made of the longest legal ones.
-/

namespace ConcreteSyntax

/-- Just these tokens come at a position. -/
def Source.Occurs (src : Source) (p : Nat) (tokens : List Char) : Prop :=
  src.slice p (p + tokens.length) = tokens

instance (src : Source) (p : Nat) (tokens : List Char) : Decidable (src.Occurs p tokens) :=
  inferInstanceAs (Decidable (_ = _))

theorem Source.comesNext_iff_occurs {src : Source} {p : Nat} {tokens : List Char} :
    src.comesNext p tokens = true ↔ src.Occurs p tokens := by
  rw [comesNext, beq_iff_eq, Occurs]

/-- Tokens that occur are there. -/
theorem Source.Occurs.le_size {src : Source} {p : Nat} {tokens : List Char}
    (h : src.Occurs p tokens) (hne : tokens ≠ []) : p + tokens.length ≤ src.size := by
  have hpos := List.length_pos_iff.mpr hne
  have hlength := congrArg List.length h
  rw [Source.length_slice] at hlength
  omega

theorem Source.occurs_iff {src : Source} {p : Nat} {tokens : List Char} :
    src.Occurs p tokens ↔ tokens <+: src.tokens.toList.drop p := by
  rw [← comesNext_iff_occurs, comesNext_iff, remaining, slice_eq, size, ← Array.length_toList,
    List.take_length]

theorem Source.occurs_singleton_iff {src : Source} {p : Nat} {c : Char} :
    src.Occurs p [c] ↔ src.tokens.toList[p]? = some c := by
  rw [occurs_iff, List.singleton_prefix_iff_head?_eq_some, List.head?_drop]

namespace Delimited

/-! ## The longest first -/

theorem dropRepeats_sublist (ss : List (List Char)) : (dropRepeats ss).Sublist ss := by
  fun_induction dropRepeats ss with
  | case1 => exact .slnil
  | case2 => exact .refl _
  | case3 t rest ih => exact ih.cons t
  | case4 t u rest _ ih => exact ih.cons_cons t

theorem mem_dropRepeats {s : List Char} {ss : List (List Char)} :
    s ∈ dropRepeats ss ↔ s ∈ ss := by
  refine ⟨mem_of_mem_dropRepeats, fun h => ?_⟩
  fun_induction dropRepeats ss with
  | case1 => exact h
  | case2 => exact h
  | case3 t rest ih =>
      rcases List.mem_cons.mp h with rfl | h
      · exact ih List.mem_cons_self
      · exact ih h
  | case4 t u rest _ ih =>
      rcases List.mem_cons.mp h with rfl | h
      · exact List.mem_cons_self
      · exact List.mem_cons_of_mem _ (ih h)

theorem mem_longestFirst {s : List Char} {ss : List (List Char)} :
    s ∈ longestFirst ss ↔ s ∈ ss :=
  mem_dropRepeats.trans List.mem_mergeSort

theorem longestFirst_eq_nil_iff {ss : List (List Char)} : longestFirst ss = [] ↔ ss = [] := by
  simp only [List.eq_nil_iff_forall_not_mem, mem_longestFirst]

theorem pairwise_longestFirst (ss : List (List Char)) :
    (longestFirst ss).Pairwise fun s t => t.length ≤ s.length := by
  have hsorted : (ss.mergeSort fun s t => decide (t.length ≤ s.length)).Pairwise
      fun s t => decide (t.length ≤ s.length) = true := by
    apply List.pairwise_mergeSort
    · intro s t u hst htu
      rw [decide_eq_true_eq] at hst htu ⊢
      omega
    · intro s t
      simp only [Bool.or_eq_true, decide_eq_true_eq]
      omega
  exact (hsorted.sublist (dropRepeats_sublist _)).imp of_decide_eq_true

/-- The first that comes next is the longest. -/
theorem longest_of_find? {ss : List (List Char)} {test : List Char → Bool} {s : List Char}
    (h : (longestFirst ss).find? test = some s) :
    ∀ t ∈ ss, test t = true → t.length ≤ s.length := by
  intro t ht htest
  obtain ⟨-, before, behind, hsplit, hbefore⟩ := List.find?_eq_some_iff_append.mp h
  have hsorted := pairwise_longestFirst ss
  have hmem := mem_longestFirst.mpr ht
  rw [hsplit] at hsorted hmem
  rcases List.mem_append.mp hmem with hmem | hmem
  · simpa [htest] using hbefore t hmem
  · rcases List.mem_cons.mp hmem with rfl | hmem
    · exact Nat.le_refl _
    · exact (List.pairwise_cons.mp (List.pairwise_append.mp hsorted).2.1).1 t hmem

namespace Options

variable {o : Options} {d : Delimited} {src : Source} {start stop p : Nat}

/-! ## What content may be -/

/-- Content may hold the token: it is in one of the legal ranges, if there are any, and in
none of the illegal ones. -/
def Admits (o : Options) (c : Char) : Prop :=
  (o.legalRanges = [] ∨ ∃ r ∈ o.legalRanges, r.contains c = true) ∧
    ∀ r ∈ o.illegalRanges, r.contains c = false

/-- The sequence is an illegal one or the end delimiter. -/
def Bars (o : Options) (s : List Char) : Prop :=
  s ∈ o.illegalSequences.map String.toList ∨ s ∈ o.stop.map String.toList

/-- The tokens from `p` to `q` lie wholly within an occurrence of the escape, which does
not start before the content. -/
def Shields (o : Options) (src : Source) (start p q : Nat) : Prop :=
  ∃ esc ∈ o.escape.map String.toList, ∃ s, start ≤ s ∧ s ≤ p ∧ q ≤ s + esc.length ∧
    src.Occurs s esc

/-- From the start of the content on, a barred sequence occurs that no escape shields. -/
structure Breach (o : Options) (src : Source) (start p : Nat) (s : List Char) : Prop where
  barred : o.Bars s
  start_le : start ≤ p
  occurs : src.Occurs p s
  unshielded : ¬ o.Shields src start p (p + s.length)

/-- Of the legal sequences that come at a position, this is the longest. -/
structure Longest (o : Options) (src : Source) (p : Nat) (s : List Char) : Prop where
  legal : s ∈ o.legalSequences.map String.toList
  occurs : src.Occurs p s
  longest : ∀ t ∈ o.legalSequences.map String.toList, src.Occurs p t → t.length ≤ s.length

/-- Legal sequences, each the longest where it starts, fill the content up to a position. -/
inductive Splits (o : Options) (src : Source) (start : Nat) : Nat → Prop where
  | nil : Splits o src start start
  | snoc {p : Nat} {s : List Char} (before : Splits o src start p)
      (longest : o.Longest src p s) : Splits o src start (p + s.length)

/-- Why content that is read token by token cannot go on. -/
inductive TokensEnd (o : Options) (src : Source) (start : Nat) : Nat → Prop where
  | exhausted {p : Nat} (noToken : src.size ≤ p) : TokensEnd o src start p
  | refused {p : Nat} {c : Char} (token : src.token? p = some c) (illegal : ¬ o.Admits c) :
      TokensEnd o src start p
  /-- No other barred sequence is completed before this one. -/
  | breached {p : Nat} {s : List Char} (breach : o.Breach src start p s)
      (legal : ∀ c ∈ s, o.Admits c)
      (first : ∀ q t, o.Breach src start q t → p + s.length ≤ q + t.length) :
      TokensEnd o src start p

/-- Why content that is read sequence by sequence cannot go on. -/
inductive SequencesEnd (o : Options) (src : Source) (start : Nat) : Nat → Prop where
  | exhausted {p : Nat}
      (noSequence : ∀ s ∈ o.legalSequences.map String.toList, ¬ src.Occurs p s) :
      SequencesEnd o src start p
  | refused {p : Nat} {s : List Char} {c : Char} (next : o.Longest src p s) (member : c ∈ s)
      (illegal : ¬ o.Admits c) : SequencesEnd o src start p
  /-- The next sequence would complete a barred one. -/
  | breached {p q : Nat} {s t : List Char} (next : o.Longest src p s)
      (breach : o.Breach src start q t) (behind : p < q + t.length)
      (within : q + t.length ≤ p + s.length) : SequencesEnd o src start p

/-- Content reaches from `start` to `stop` and cannot go on. -/
structure ReadsTo (o : Options) (src : Source) (start stop : Nat) : Prop where
  start_le_stop : start ≤ stop
  stop_le_size : stop ≤ src.size
  admitted : ∀ c ∈ src.slice start stop, o.Admits c
  intact : ∀ p s, o.Breach src start p s → stop < p + s.length
  tokens : o.legalSequences = [] → o.TokensEnd src start stop
  sequences : o.legalSequences ≠ [] → o.Splits src start stop ∧ o.SequencesEnd src start stop

/-- The content is enough, and the end delimiter, if there is one, comes behind it. -/
def Closes (o : Options) (src : Source) (start stop : Nat) : Prop :=
  (start < stop ∨ o.acceptsEmpty = true) ∧ ∀ e ∈ o.stop, src.Occurs stop e.toList

/-- The tokens of the end delimiter, or none. -/
def closing (o : Options) : List Char := (o.stop.map String.toList).getD []

/-! ## Built rules -/

/-- The rule is what is built from the options. -/
structure Built (o : Options) (d : Delimited) : Prop where
  start : d.start = o.start.toList
  stop : d.stop = o.stop.map String.toList
  legalSequences : d.legalSequences = longestFirst (o.legalSequences.map String.toList)
  illegalSequences : d.illegalSequences =
    withStop (o.stop.map String.toList) (o.illegalSequences.map String.toList)
  legalRanges : d.legalRanges = .ofList o.legalRanges
  illegalRanges : d.illegalRanges = .ofList o.illegalRanges
  escape : d.escape = o.escape.map String.toList
  acceptsEmpty : d.acceptsEmpty = o.acceptsEmpty
  escape_ne_nil : ∀ esc ∈ o.escape.map String.toList, esc ≠ []

theorem built_of_build (h : build o = .ok d) : o.Built d := by
  unfold build at h
  dsimp only at h
  split_ifs at h with _ _ _ _ _ hsequences
  obtain rfl := Except.ok.inj h
  exact ⟨rfl, rfl, rfl, rfl, rfl, rfl, rfl, rfl, fun esc hesc hnil =>
    hsequences (Or.inr (hnil ▸ hesc))⟩

namespace Built

variable (hb : o.Built d)

include hb

theorem legalToken_iff {c : Char} : d.legalToken c = true ↔ o.Admits c := by
  rw [legalToken, hb.legalRanges, hb.illegalRanges, RangeSet.admits_ofList, Admits]

theorem mem_illegalSequences_iff {s : List Char} : s ∈ d.illegalSequences ↔ o.Bars s := by
  rw [hb.illegalSequences, mem_withStop, Bars]

theorem escaped_iff {length : Nat} (hlength : length ≤ p) :
    d.Escaped src start p length ↔ o.Shields src start (p - length) p := by
  rw [Escaped, Shields, hb.escape]
  constructor
  · rintro ⟨esc, hesc, s, h₁, h₂, h₃, -, h₅⟩
    exact ⟨esc, hesc, s, h₁, by omega, h₃, h₅⟩
  · rintro ⟨esc, hesc, s, h₁, h₂, h₃, h₄⟩
    exact ⟨esc, hesc, s, h₁, by omega, h₃, h₄.le_size (hb.escape_ne_nil esc hesc), h₄⟩

/-- Where content ends illegally, a breach ends. -/
theorem endsIllegally_iff (hp : start ≤ p) (hsize : p ≤ src.size) :
    d.EndsIllegally src start p ↔ ∃ q s, o.Breach src start q s ∧ q + s.length = p := by
  constructor
  · rintro ⟨s, hs, hsuffix, huncovered⟩
    have hlength := hsuffix.length_le
    rw [Source.length_slice_of_le hsize] at hlength
    have hback : p - s.length + s.length = p := by omega
    refine ⟨p - s.length, s, ⟨hb.mem_illegalSequences_iff.mp hs, by omega, ?_, ?_⟩, hback⟩
    · rw [Source.Occurs, hback]
      exact Source.slice_eq_of_suffix hsize hsuffix
    · rw [hback]
      exact fun h => huncovered ((hb.escaped_iff (by omega)).mpr h)
  · rintro ⟨q, s, h, rfl⟩
    refine ⟨s, hb.mem_illegalSequences_iff.mpr h.barred, ?_, ?_⟩
    · rw [Source.slice_append h.start_le (Nat.le_add_right _ _), h.occurs]
      exact List.suffix_append _ _
    · rw [hb.escaped_iff (Nat.le_add_left _ _), Nat.add_sub_cancel]
      exact h.unshielded

theorem longest_of_find? {s : List Char}
    (h : d.legalSequences.find? (src.comesNext p) = some s) : o.Longest src p s := by
  rw [hb.legalSequences] at h
  exact ⟨mem_longestFirst.mp (List.mem_of_find?_eq_some h),
    Source.comesNext_iff_occurs.mp (List.find?_some h),
    fun t ht hnext => Delimited.longest_of_find? h t ht (Source.comesNext_iff_occurs.mpr hnext)⟩

theorem legalSequences_eq_nil_iff : d.legalSequences = [] ↔ o.legalSequences = [] := by
  rw [hb.legalSequences, longestFirst_eq_nil_iff, List.map_eq_nil_iff]

theorem splits (h : d.Pieces src start p) : o.Splits src start p := by
  induction h with
  | nil => exact .nil
  | snoc _ next ih => exact ih.snoc (hb.longest_of_find? next)

theorem tokensEnd (hle : start ≤ stop) (hsize : stop ≤ src.size)
    (h : d.TokensEnd src start stop) : o.TokensEnd src start stop := by
  cases h with
  | exhausted noToken => exact .exhausted noToken
  | refused token illegal =>
      exact .refused token fun hc => by simp [hb.legalToken_iff.mpr hc] at illegal
  | @completed s member occurs legal uncovered first =>
      have hend := Source.le_size_of_slice_eq hsize occurs
      rw [hb.escaped_iff (Nat.le_add_left _ _), Nat.add_sub_cancel] at uncovered
      refine .breached ⟨hb.mem_illegalSequences_iff.mp member, hle, occurs, uncovered⟩
        (fun c hc => hb.legalToken_iff.mp (legal c hc)) fun q t hbreach => ?_
      by_contra hlt
      have hstart := hbreach.start_le
      refine first (q + t.length) (by omega) (by omega) ?_
      exact (hb.endsIllegally_iff (by omega) (by omega)).mpr ⟨q, t, hbreach, rfl⟩

theorem sequencesEnd (hle : start ≤ stop) (hsize : stop ≤ src.size)
    (h : d.SequencesEnd src start stop) : o.SequencesEnd src start stop := by
  cases h with
  | exhausted noSequence =>
      refine .exhausted fun s hs hnext => ?_
      have := List.find?_eq_none.mp noSequence s (hb.legalSequences ▸ mem_longestFirst.mpr hs)
      exact this (Source.comesNext_iff_occurs.mpr hnext)
  | refused next member illegal =>
      exact .refused (hb.longest_of_find? next) member
        fun hc => by simp [hb.legalToken_iff.mpr hc] at illegal
  | @completed k s next behind within illegal =>
      have hlongest := hb.longest_of_find? next
      have hend := Source.le_size_of_slice_eq hsize hlongest.occurs
      obtain ⟨q, t, hbreach, rfl⟩ := (hb.endsIllegally_iff (by omega) (by omega)).mp illegal
      exact .breached hlongest hbreach behind within

/-- **Content.** What a built rule reads is content in the terms it was built in, and
reading stops where that cannot go on. -/
theorem readsTo (h : d.Read src start stop) : o.ReadsTo src start stop where
  start_le_stop := h.start_le_stop
  stop_le_size := h.stop_le_size
  admitted c hc := hb.legalToken_iff.mp (h.legal c hc)
  intact p s hbreach := by
    by_contra hle
    have hstart := hbreach.start_le
    have hsize := h.stop_le_size
    refine h.intact (p + s.length) (by omega) (by omega) ?_
    exact (hb.endsIllegally_iff (by omega) (by omega)).mpr ⟨p, s, hbreach, rfl⟩
  tokens hnil := hb.tokensEnd h.start_le_stop h.stop_le_size
    (h.tokens (hb.legalSequences_eq_nil_iff.mpr hnil))
  sequences hsome := by
    obtain ⟨hpieces, hend⟩ := h.sequences (mt hb.legalSequences_eq_nil_iff.mp hsome)
    exact ⟨hb.splits hpieces, hb.sequencesEnd h.start_le_stop h.stop_le_size hend⟩

theorem closes_iff : d.Closes src start stop ↔ o.Closes src start stop := by
  rw [Delimited.Closes, Closes, hb.acceptsEmpty, hb.stop]
  cases o.stop <;> simp [Source.Occurs]

/-- **Recognition.** A built rule answers by the content it reads. -/
theorem recognize_cases (path : Path) (hp : p ≤ src.size) :
    (¬ src.Occurs p o.start.toList ∧ d.recognize src path p = .failure (.failed path p) p) ∨
      src.Occurs p o.start.toList ∧ ∃ start stop, start = p + o.start.toList.length ∧
        d.readContent src start = .ok stop ∧ o.ReadsTo src start stop ∧
        ((o.Closes src start stop ∧ d.recognize src path p =
            .success (.atom path.symbol ⟨start, stop - start⟩) (stop + o.closing.length)) ∨
          ¬ o.Closes src start stop ∧
            d.recognize src path p = .failure (.partway path p (stop - p)) p) := by
  have hanswers := d.recognize_cases path hp
  rw [hb.start, hb.stop] at hanswers
  rcases hanswers with ⟨hopen, hr⟩ | ⟨stop, hopen, hread, hcontent, hanswer⟩
  · exact Or.inl ⟨hopen, hr⟩
  · refine Or.inr ⟨hopen, _, stop, rfl, hread, hb.readsTo hcontent, ?_⟩
    rwa [hb.closes_iff] at hanswer

end Built

end Options

end Delimited

/-- **Delimited content.** Recognition with a built rule fails with nothing committed just
if the start delimiter does not come. Behind it content is read as far as it goes, the
atom covers this content and nothing else, and it is recognized just if it is enough and
the end delimiter, where there is one, comes next. -/
theorem delimited_content {o : Delimited.Options} {d : Delimited} (hbuild : Delimited.build o = .ok d)
    (src : Source) (path : Path) {p : Nat} (hp : p ≤ src.size) :
    ((∃ e q, d.recognize src path p = .failure e q ∧ e.isFailed = true) ↔
        ¬ src.Occurs p o.start.toList) ∧
      (src.Occurs p o.start.toList → ∃ start stop, start = p + o.start.toList.length ∧
        d.readContent src start = .ok stop ∧ o.ReadsTo src start stop ∧
        (o.Closes src start stop → d.recognize src path p =
          .success (.atom path.symbol ⟨start, stop - start⟩) (stop + o.closing.length)) ∧
        (¬ o.Closes src start stop →
          d.recognize src path p = .failure (.partway path p (stop - p)) p)) := by
  rcases (Delimited.Options.built_of_build hbuild).recognize_cases path hp with
    ⟨hopen, hr⟩ | ⟨hopen, start, stop, hstart, hread, hcontent, hanswer⟩
  · exact ⟨⟨fun _ => hopen, fun _ => ⟨_, _, hr, rfl⟩⟩, fun h => absurd h hopen⟩
  · refine ⟨⟨?_, fun h => absurd hopen h⟩, fun _ =>
      ⟨start, stop, hstart, hread, hcontent, fun hcloses => ?_, fun hopen => ?_⟩⟩
    · rintro ⟨e, q, hr, hfailed⟩
      rcases hanswer with ⟨-, hanswer⟩ | ⟨-, hanswer⟩ <;> rw [hanswer] at hr <;> cases hr
      cases hfailed
    · exact (hanswer.resolve_right fun h => h.1 hcloses).2
    · exact (hanswer.resolve_left fun h => hopen h.1).2

theorem Delimited.ne_nil_of_mem_nil : ∀ s ∈ ([] : List (List Char)), s ≠ [] :=
  List.forall_mem_nil _

/-- Text in angle brackets, in which a backslash escapes the closing one. -/
def bracketOptions : Delimited.Options where
  start := "<"
  stop := some ">"
  legalSequences := []
  illegalSequences := []
  legalRanges := []
  illegalRanges := []
  escape := some "\\>"
  acceptsEmpty := true

/-- The rule that is built from these options. -/
def bracketRule : Delimited where
  start := ['<']
  stop := some ['>']
  legalSequences := []
  illegalSequences := [['>']]
  legalRanges := .empty
  illegalRanges := .empty
  escape := some ['\\', '>']
  acceptsEmpty := true
  start_ne_nil := by simp
  legal_ne_nil := Delimited.ne_nil_of_mem_nil
  illegal_ne_nil := by simp
  stop_mem_illegal := by simp

theorem build_bracket : Delimited.build bracketOptions = .ok bracketRule := by
  simp [Delimited.build, bracketOptions, bracketRule, Delimited.longestFirst,
    Delimited.dropRepeats, Delimited.withStop, RangeSet.ofList, CharRange.normalize,
    RangeSet.empty]

/-- The bracket behind the backslash is content, and the next one ends it. -/
theorem delimited_content_bracket :
    Delimited.build bracketOptions = .ok bracketRule ∧
      0 ≤ (Source.ofString "<a\\>b> x").size ∧
      bracketOptions.ReadsTo (Source.ofString "<a\\>b> x") 1 5 ∧
      bracketRule.recognize (Source.ofString "<a\\>b> x") (.root "text") 0 =
        .success (.atom "text" ⟨1, 4⟩) 6 := by
  have hopen : (Source.ofString "<a\\>b> x").Occurs 0 bracketOptions.start.toList := by decide
  obtain ⟨start, stop, hstart, hread, hcontent, hcloses, -⟩ :=
    (delimited_content build_bracket _ (.root "text") (Nat.zero_le _)).2 hopen
  obtain rfl : start = 1 := hstart
  obtain rfl : 5 = stop := Except.ok.inj hread
  refine ⟨build_bracket, Nat.zero_le _, hcontent, hcloses ⟨.inl (by decide), ?_⟩⟩
  rintro e ⟨⟩
  decide

end ConcreteSyntax
