import ConcreteSyntax.Proofs.Terminal.Delimitation
import ConcreteSyntax.Proofs.Texts
import Mathlib.Data.List.Infix

/-!
# Plain content and the delimiter behind it

Content is read together with the end delimiter that follows it, as one text, and it ends
where the first barred sequence of that text begins. For content without such a sequence
this is the end delimiter, unless another one lies across the place where the two meet. An
end delimiter that begins as it ends lies across that place by itself.
-/

namespace ConcreteSyntax

/-- Content between two delimiters, with sequences that may not occur in it. -/
def plainOptions (start stop : String) (illegal : List String) : Delimited.Options where
  start
  stop := some stop
  legalSequences := []
  illegalSequences := illegal
  legalRanges := []
  illegalRanges := []
  escape := none
  acceptsEmpty := true

/-- Of the barred sequences that occur in a text none is completed before one that begins
at this place. -/
def Delimited.Options.BreaksAt (o : Options) (text : List Char) (k : Nat) : Prop :=
  ∃ s, o.Bars s ∧ s <+: text.drop k ∧
    ∀ j t, o.Bars t → t <+: text.drop j → k + s.length ≤ j + t.length

/-- Nothing but the whole sequence is both a beginning and an end of it. -/
def Unbordered (s : List Char) : Prop :=
  ∀ u, u ≠ [] → u <+: s → u <:+ s → u = s

section

variable {src : Source} {start stop trailing : String} {illegal : List String}
variable {content s : List Char} {d : Delimited} {k p : Nat}

/-! ## Reading -/

theorem plainOptions_bars_stop : (plainOptions start stop illegal).Bars stop.toList :=
  Or.inr rfl

theorem plainOptions_bars_iff : (plainOptions start stop []).Bars s ↔ s = stop.toList := by
  simp [Delimited.Options.Bars, plainOptions, eq_comm]

theorem plainOptions_admits (c : Char) : (plainOptions start stop illegal).Admits c := by
  simp [Delimited.Options.Admits, plainOptions]

/-- Content between two delimiters may be empty, and is closed by the second one. -/
theorem plainOptions_closes_iff :
    (plainOptions start stop illegal).Closes src p k ↔ src.Occurs k stop.toList := by
  constructor
  · rintro ⟨-, hclosed⟩
    exact hclosed _ rfl
  · refine fun hoccurs => ⟨.inr rfl, ?_⟩
    rintro e ⟨⟩
    exact hoccurs

variable (hsrc : src.tokens.toList = start.toList ++ (content ++ stop.toList ++ trailing.toList))

include hsrc

theorem occurs_behind_start_iff : src.Occurs (start.toList.length + k) s ↔
    s <+: (content ++ stop.toList ++ trailing.toList).drop k := by
  rw [Source.occurs_iff, hsrc, List.drop_length_add_append]

theorem plainOptions_breach_iff :
    (plainOptions start stop illegal).Breach src start.toList.length (start.toList.length + k) s ↔
      (plainOptions start stop illegal).Bars s ∧
        s <+: (content ++ stop.toList ++ trailing.toList).drop k := by
  rw [← occurs_behind_start_iff hsrc]
  constructor
  · exact fun h => ⟨h.barred, h.occurs⟩
  · rintro ⟨hbars, hoccurs⟩
    refine ⟨hbars, Nat.le_add_right _ _, hoccurs, ?_⟩
    rintro ⟨_, ⟨⟩, -⟩

theorem occurs_behind_content : src.Occurs (start.toList.length + content.length) stop.toList := by
  rw [occurs_behind_start_iff hsrc, List.append_assoc, List.drop_left]
  exact List.prefix_append _ _

/-- Content ends where the text of the content and the end delimiter breaks. -/
theorem breaksAt_of_readsTo
    (hread : (plainOptions start stop illegal).ReadsTo src start.toList.length
      (start.toList.length + k)) :
    (plainOptions start stop illegal).BreaksAt (content ++ stop.toList) k := by
  have hend : (plainOptions start stop illegal).Breach src start.toList.length
      (start.toList.length + content.length) stop.toList :=
    (plainOptions_breach_iff hsrc).mpr ⟨plainOptions_bars_stop,
      (occurs_behind_start_iff hsrc).mp (occurs_behind_content hsrc)⟩
  generalize hstop : start.toList.length + k = p at hread
  cases hread.tokens rfl with
  | exhausted noToken =>
      -- the end delimiter is still to come
      have hwithin := hread.intact _ _ hend
      have hsize : src.size = start.toList.length +
          (content.length + stop.toList.length + trailing.toList.length) := by
        rw [Source.size, ← Array.length_toList, hsrc]
        simp only [List.length_append]
      omega
  | refused _ refused => exact absurd (plainOptions_admits _) refused
  | @breached s breach _ first =>
      subst hstop
      obtain ⟨hbars, hoccurs⟩ := (plainOptions_breach_iff hsrc).mp breach
      refine ⟨s, hbars, ?_, fun j t ht hnext => ?_⟩
      · -- it is completed no later than the end delimiter, so nothing of it trails
        have hlast := first _ _ hend
        refine List.prefix_of_prefix_length_le hoccurs
          (List.IsPrefix.drop (List.prefix_append _ trailing.toList) k) ?_
        rw [List.length_drop, List.length_append]
        omega
      · have hnext' := hnext.trans (List.IsPrefix.drop (List.prefix_append _ trailing.toList) j)
        have hfirst := first _ _ ((plainOptions_breach_iff hsrc).mpr ⟨ht, hnext'⟩)
        omega

/-- The rule reads up to where the text breaks, and looks for the end delimiter there. -/
theorem plain_content_cases (hbuild : Delimited.build (plainOptions start stop illegal) = .ok d)
    (path : Path) :
    ∃ k, (plainOptions start stop illegal).BreaksAt (content ++ stop.toList) k ∧
      ((src.Occurs (start.toList.length + k) stop.toList ∧ d.recognize src path 0 =
          .success (.atom path.symbol ⟨start.toList.length, k⟩)
            (start.toList.length + k + stop.toList.length)) ∨
        ¬ src.Occurs (start.toList.length + k) stop.toList ∧
          d.recognize src path 0 = .failure (.partway path 0 (start.toList.length + k)) 0) := by
  have hopen : src.Occurs 0 start.toList := by
    rw [Source.occurs_iff, hsrc]
    exact List.prefix_append _ _
  obtain ⟨-, _, e, rfl, -, hread, hanswer⟩ :=
    ((Delimited.Options.built_of_build hbuild).recognize_cases path (Nat.zero_le _)).resolve_left
      fun h => h.1 hopen
  have hstart : 0 + (plainOptions start stop illegal).start.toList.length = start.toList.length :=
    Nat.zero_add _
  have hclosing : (plainOptions start stop illegal).closing = stop.toList := rfl
  rw [hstart] at hread
  obtain ⟨k, rfl⟩ := Nat.exists_eq_add_of_le hread.start_le_stop
  rw [hstart, hclosing, plainOptions_closes_iff, Nat.add_sub_cancel_left, Nat.sub_zero] at hanswer
  exact ⟨k, breaksAt_of_readsTo hsrc hread, hanswer⟩

end

theorem tokens_between (start stop trailing : String) (content : List Char) :
    (Source.ofString (start ++ String.ofList content ++ stop ++ trailing)).tokens.toList =
      start.toList ++ (content ++ stop.toList ++ trailing.toList) := by
  simp [Source.tokens_ofString]

/-- **Plain content.** Whatever trails behind the end delimiter, content is read back as it
was written if the text of the content and the end delimiter breaks where the end delimiter
begins and nowhere else. If it does not break there, reading stops at another place where it
breaks: there the atom ends if the end delimiter comes next, and if not the answer is a
failure partway. -/
theorem plain_content_round_trips {start stop : String} {illegal : List String} {d : Delimited}
    (hbuild : Delimited.build (plainOptions start stop illegal) = .ok d) (content : List Char)
    (trailing : String) (path : Path) :
    let o := plainOptions start stop illegal
    let src := Source.ofString (start ++ String.ofList content ++ stop ++ trailing)
    ((∀ k, o.BreaksAt (content ++ stop.toList) k → k = content.length) →
        d.recognize src path 0 =
          .success (.atom path.symbol ⟨start.toList.length, content.length⟩)
            (start.toList.length + content.length + stop.toList.length)) ∧
      (¬ o.BreaksAt (content ++ stop.toList) content.length →
        ∃ k, k ≠ content.length ∧ o.BreaksAt (content ++ stop.toList) k ∧
          ((src.Occurs (start.toList.length + k) stop.toList ∧ d.recognize src path 0 =
              .success (.atom path.symbol ⟨start.toList.length, k⟩)
                (start.toList.length + k + stop.toList.length)) ∨
            ¬ src.Occurs (start.toList.length + k) stop.toList ∧
              d.recognize src path 0 =
                .failure (.partway path 0 (start.toList.length + k)) 0)) := by
  intro o src
  have hsrc := tokens_between start stop trailing content
  obtain ⟨k, hbreak, hanswer⟩ := plain_content_cases hsrc hbuild path
  constructor
  · intro honly
    obtain rfl := honly k hbreak
    exact (hanswer.resolve_right fun h => h.1 (occurs_behind_content hsrc)).2
  · intro hnot
    refine ⟨k, ?_, hbreak, hanswer⟩
    rintro rfl
    exact hnot hbreak

/-- Text between double angle brackets. -/
def anglesRule : Delimited where
  start := ['<', '<']
  stop := some ['>', '>']
  legalSequences := []
  illegalSequences := [['>', '>']]
  legalRanges := .empty
  illegalRanges := .empty
  escape := none
  acceptsEmpty := true
  start_ne_nil := by simp
  legal_ne_nil := Delimited.ne_nil_of_mem_nil
  illegal_ne_nil := by simp
  stop_mem_illegal := by simp

theorem build_angles : Delimited.build (plainOptions "<<" ">>" []) = .ok anglesRule := by
  simp [Delimited.build, plainOptions, anglesRule, Delimited.longestFirst,
    Delimited.dropRepeats, Delimited.withStop, RangeSet.ofList, CharRange.normalize,
    RangeSet.empty]

/-- The bracket at the end of the content and the first one behind it end the content. -/
theorem bracket_before_end_is_cut :
    Delimited.build (plainOptions "<<" ">>" []) = .ok anglesRule ∧
      (∀ s, (plainOptions "<<" ">>" []).Bars s → ¬ s <:+: ['a', '>']) ∧
      anglesRule.recognize (Source.ofString ("<<" ++ String.ofList ['a', '>'] ++ ">>" ++ ""))
        (.root "text") 0 = .success (.atom "text" ⟨2, 1⟩) 5 := by
  refine ⟨build_angles, fun s hs => ?_, rfl⟩
  obtain rfl := plainOptions_bars_iff.mp hs
  decide

/-- Text of a comment, in which no two dashes may stand together. -/
def commentRule : Delimited where
  start := ['<', '!', '-', '-']
  stop := some ['-', '-', '>']
  legalSequences := []
  illegalSequences := [['-', '-'], ['-', '-', '>']]
  legalRanges := .empty
  illegalRanges := .empty
  escape := none
  acceptsEmpty := true
  start_ne_nil := by simp
  legal_ne_nil := Delimited.ne_nil_of_mem_nil
  illegal_ne_nil := by simp
  stop_mem_illegal := by simp

theorem build_comment :
    Delimited.build (plainOptions "<!--" "-->" ["--"]) = .ok commentRule := by
  simp [Delimited.build, plainOptions, commentRule, Delimited.longestFirst,
    Delimited.dropRepeats, Delimited.withStop, RangeSet.ofList, CharRange.normalize,
    RangeSet.empty]

/-- The dashes that begin the end delimiter are the first two that stand together. -/
theorem plain_content_round_trips_comment :
    Delimited.build (plainOptions "<!--" "-->" ["--"]) = .ok commentRule ∧
      (∀ k, (plainOptions "<!--" "-->" ["--"]).BreaksAt (['a', '-', 'b'] ++ "-->".toList) k →
        k = ['a', '-', 'b'].length) ∧
      commentRule.recognize
          (Source.ofString ("<!--" ++ String.ofList ['a', '-', 'b'] ++ "-->" ++ " c"))
          (.root "comment") 0 = .success (.atom "comment" ⟨4, 3⟩) 10 := by
  have hbreaks : ∀ k, (plainOptions "<!--" "-->" ["--"]).BreaksAt
      (['a', '-', 'b'] ++ "-->".toList) k → k = ['a', '-', 'b'].length := by
    rintro k ⟨s, hs, hnext, hfirst⟩
    have hmem : s ∈ ["--".toList, "-->".toList] := by
      simpa [Delimited.Options.Bars, plainOptions, eq_comm] using hs
    have hlength : ∀ s ∈ ["--".toList, "-->".toList], 2 ≤ s.length := by decide
    have hbefore : ∀ k < 3, ∀ s ∈ ["--".toList, "-->".toList],
        ¬ s <+: (['a', '-', 'b'] ++ "-->".toList).drop k := by decide
    have hlast : k + s.length ≤ 5 := hfirst 3 "--".toList (Or.inl (by decide)) (by decide)
    have hle : k ≤ 3 := by
      have := hlength s hmem
      omega
    exact Nat.le_antisymm hle (Nat.le_of_not_lt fun hlt => hbefore k hlt s hmem hnext)
  exact ⟨build_comment, hbreaks,
    (plain_content_round_trips build_comment ['a', '-', 'b'] " c" (.root "comment")).1 hbreaks⟩

/-! ## Borders -/

section

variable {start stop : String} {content : List Char} {k : Nat}

/-- A sequence without a border that begins within a list ends within it, unless it begins
where the list does. -/
theorem Unbordered.prefix_of_prefix_append {s v : List Char} (h : Unbordered s) (hv : v ≠ [])
    (hs : s <+: v ++ s) : s <+: v := by
  rcases Nat.le_total s.length v.length with hle | hle
  · exact List.prefix_of_prefix_length_le hs (List.prefix_append _ _) hle
  · obtain ⟨u, rfl⟩ := List.prefix_of_prefix_length_le (List.prefix_append _ _) hs hle
    by_cases hu : u = []
    · rw [hu, List.append_nil]
    · -- what is left of it is a border
      have hwhole := h u hu ((List.prefix_append_right_inj v).mp hs) (List.suffix_append _ _)
      exact absurd (List.self_eq_append_left.mp hwhole) hv

/-- Behind content without it, an end delimiter without a border is where the text breaks. -/
theorem Unbordered.breaksAt_eq (h : Unbordered stop.toList) (hclean : ¬ stop.toList <:+: content)
    (hbreak : (plainOptions start stop []).BreaksAt (content ++ stop.toList) k) :
    k = content.length := by
  obtain ⟨s, hs, hnext, hfirst⟩ := hbreak
  obtain rfl := plainOptions_bars_iff.mp hs
  have hle : k ≤ content.length := Nat.le_of_add_le_add_right
    (hfirst content.length _ plainOptions_bars_stop (by rw [List.drop_left]))
  rw [List.drop_append_of_le_length hle] at hnext
  by_contra hne
  have hrest : content.drop k ≠ [] := by
    rw [Ne, List.drop_eq_nil_iff]
    omega
  exact hclean ((h.prefix_of_prefix_append hrest hnext).isInfix.trans
    (List.drop_suffix _ _).isInfix)

end

/-- **Borders.** A rule without illegal sequences reads back all content in which its end
delimiter does not occur just if the end delimiter has no border: if it has one, the part
before the border is content that is cut. -/
theorem round_trips_iff_unbordered {start stop : String} {d : Delimited}
    (hbuild : Delimited.build (plainOptions start stop []) = .ok d) :
    (∀ (content : List Char), ¬ stop.toList <:+: content → ∀ (trailing : String) (path : Path),
        d.recognize (Source.ofString (start ++ String.ofList content ++ stop ++ trailing)) path 0 =
          .success (.atom path.symbol ⟨start.toList.length, content.length⟩)
            (start.toList.length + content.length + stop.toList.length)) ↔
      Unbordered stop.toList := by
  constructor
  · intro hall u hu hprefix hsuffix
    obtain ⟨v, hv⟩ := hsuffix
    have hpos := List.length_pos_iff.mpr hu
    have hlength := congrArg List.length hv
    rw [List.length_append] at hlength
    have hclean : ¬ stop.toList <:+: v := by
      intro hinfix
      have := hinfix.length_le
      omega
    have hbegins : stop.toList <+: v ++ stop.toList := by
      conv_lhs => rw [← hv]
      exact (List.prefix_append_right_inj v).mpr hprefix
    obtain ⟨k, ⟨s, hs, -, hfirst⟩, hanswer⟩ :=
      plain_content_cases (tokens_between start stop "" v) hbuild (.root "")
    obtain rfl := plainOptions_bars_iff.mp hs
    obtain rfl : k = 0 := by
      have := hfirst 0 _ plainOptions_bars_stop hbegins
      omega
    rw [hall v hclean "" (.root "")] at hanswer
    obtain rfl : v = [] := by
      rcases hanswer with ⟨-, hcut⟩ | ⟨-, ⟨⟩⟩
      injection hcut with hatom
      injection hatom with _ hcontent
      exact List.eq_nil_of_length_eq_zero (congrArg Segment.count hcontent)
    exact hv
  · intro hunbordered content hclean trailing path
    have hsrc := tokens_between start stop trailing content
    obtain ⟨k, hbreak, hanswer⟩ := plain_content_cases hsrc hbuild path
    obtain rfl := hunbordered.breaksAt_eq hclean hbreak
    exact (hanswer.resolve_right fun h => h.1 (occurs_behind_content hsrc)).2

end ConcreteSyntax
