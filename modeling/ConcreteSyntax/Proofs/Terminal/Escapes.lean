import ConcreteSyntax.Proofs.Terminal.Delimitation
import ConcreteSyntax.Proofs.Texts

/-!
# Escaped content

Content in which every end delimiter belongs to an escape is read to its end, and then
the end delimiter closes it. The escape is not read as a whole, though: what matters is
whether it occurs around a delimiter, wherever it starts. So the delimiter that was to
close the content may itself be taken for part of an escape. With a delimiter of one
token this happens just if the escape is made of delimiters, and stands last or is no
longer than one.
-/

namespace ConcreteSyntax

/-! ## Units -/

/-- A unit of escaped content is the escape or a token that occurs neither in it nor as the
end delimiter. -/
def IsUnit (q : Char) (escape u : List Char) : Prop :=
  u = escape ∨ ∃ c, u = [c] ∧ c ≠ q ∧ c ∉ escape

/-- The escape occurs around the delimiter behind these units. -/
def SwallowsEnd (q : Char) (escape : List Char) (units : List (List Char)) : Prop :=
  escape = [q] ∨ ((∀ c ∈ escape, c = q) ∧ units.getLast? = some escape)

section

variable {q : Char} {escape : List Char} {units : List (List Char)}

/-- Every delimiter among the units is part of an escape. -/
theorem escape_around {i : Nat} (hunits : ∀ u ∈ units, IsUnit q escape u)
    (hi : units.flatten[i]? = some q) :
    ∃ before behind, units.flatten = before ++ escape ++ behind ∧ before.length ≤ i ∧
      i < before.length + escape.length := by
  induction units generalizing i with
  | nil => simp at hi
  | cons u rest ih =>
      obtain ⟨hu, hrest⟩ := List.forall_mem_cons.mp hunits
      rw [List.flatten_cons] at hi ⊢
      by_cases hlt : i < u.length
      · rw [List.getElem?_append_left hlt] at hi
        rcases hu with rfl | ⟨c, rfl, hc, -⟩
        · exact ⟨[], rest.flatten, rfl, Nat.zero_le i, by simpa using hlt⟩
        · obtain rfl : i = 0 := by simpa using hlt
          exact absurd (by simpa using hi) hc
      · have hle := Nat.le_of_not_lt hlt
        rw [List.getElem?_append_right hle] at hi
        obtain ⟨before, behind, hsplit, h₁, h₂⟩ := ih hrest hi
        refine ⟨u ++ before, behind, by simp [hsplit], ?_, ?_⟩ <;>
          rw [List.length_append] <;> omega

/-- A list that one token more at either end makes the same list is made of that token. -/
theorem all_eq_of_cons_eq_append {x y : Char} {xs : List Char} (h : x :: xs = xs ++ [y]) :
    ∀ c ∈ x :: xs, c = y := by
  induction xs generalizing x with
  | nil =>
      obtain rfl : x = y := by simpa using h
      simp
  | cons z zs ih =>
      obtain ⟨rfl, hrest⟩ := List.cons.inj h
      have hall := ih hrest
      exact List.forall_mem_cons.mpr ⟨hall x List.mem_cons_self, hall⟩

/-- Where the units end, an escape reaches over the delimiter behind them just if it is made
of delimiters: one token before, it occurs as well. -/
theorem escape_suffix_iff (hq : q ∈ escape) (hunits : ∀ u ∈ units, IsUnit q escape u) :
    escape <:+ units.flatten ++ [q] ↔ SwallowsEnd q escape units := by
  constructor
  · intro h
    obtain rfl | ⟨tokens, rfl, htokens⟩ := List.suffix_concat_iff.mp h
    · cases hq
    rcases List.eq_nil_or_concat units with rfl | ⟨us, u, rfl⟩
    · rw [List.flatten_nil, List.suffix_nil] at htokens
      exact Or.inl (by simp [htokens])
    rw [List.concat_eq_append, List.flatten_append, List.flatten_singleton] at htokens
    rcases hunits u (by simp) with rfl | ⟨c, rfl, -, hc⟩
    · -- both the escape and all but its last token end the units
      have hshift : tokens <:+ tokens ++ [q] :=
        List.suffix_of_suffix_length_le htokens (List.suffix_append _ _) (by simp)
      obtain ⟨first, hfirst⟩ := hshift
      obtain ⟨x, rfl⟩ : ∃ x, first = [x] := by
        refine List.length_eq_one_iff.mp ?_
        have hlength := congrArg List.length hfirst
        simp only [List.length_append, List.length_singleton] at hlength
        omega
      refine Or.inr ⟨?_, by simp⟩
      rw [← hfirst]
      exact all_eq_of_cons_eq_append hfirst
    · rcases List.suffix_concat_iff.mp htokens with rfl | ⟨_, rfl, -⟩
      · exact Or.inl rfl
      · exact absurd (by simp) hc
  · rintro (rfl | ⟨hall, hlast⟩)
    · exact List.suffix_append _ _
    · obtain ⟨us, rfl⟩ := List.getLast?_eq_some_iff.mp hlast
      have hrotate : escape ++ [q] = q :: escape := by
        rw [List.eq_replicate_iff.mpr ⟨rfl, hall⟩, ← List.replicate_succ', List.replicate_succ]
      exact ⟨us.flatten ++ [q], by simp [hrotate]⟩

end

/-! ## Reading -/

/-- Content between a start delimiter and one token, which an escape may hold. -/
def escapedOptions (start : String) (q : Char) (escape : String) : Delimited.Options where
  start
  stop := some (String.ofList [q])
  legalSequences := []
  illegalSequences := []
  legalRanges := []
  illegalRanges := []
  escape := some escape
  acceptsEmpty := true

namespace Delimited.Options

variable {o : Options} {src : Source} {start stop e : Nat}

/-- Where all tokens are admitted, content that is read token by token goes on as long as
there is no breach. -/
theorem ReadsTo.le_stop (h : o.ReadsTo src start stop) (hmode : o.legalSequences = [])
    (hadmits : ∀ c, o.Admits c) (he : e ≤ src.size)
    (hnone : ∀ p s, p < e → ¬ o.Breach src start p s) : e ≤ stop := by
  cases h.tokens hmode with
  | exhausted noToken => exact Nat.le_trans he noToken
  | refused _ illegal => exact absurd (hadmits _) illegal
  | @breached s breach _ _ =>
      by_contra hlt
      exact hnone stop s (Nat.lt_of_not_le hlt) breach

end Delimited.Options

section

variable {src : Source} {start escape : String} {q : Char} {units : List (List Char)} {p : Nat}
variable {tokens : List Char}

theorem escapedOptions_bars_iff : (escapedOptions start q escape).Bars tokens ↔ tokens = [q] := by
  simp [Delimited.Options.Bars, escapedOptions, eq_comm]

theorem escapedOptions_admits (c : Char) : (escapedOptions start q escape).Admits c := by
  simp [Delimited.Options.Admits, escapedOptions]

variable (hsrc : src.tokens.toList = start.toList ++ (units.flatten ++ [q]))

include hsrc

theorem size_of_units : src.size = start.toList.length + units.flatten.length + 1 := by
  rw [Source.size, ← Array.length_toList, hsrc]
  simp only [List.length_append, List.length_singleton]
  omega

/-- Among the units no delimiter is left to end the content. -/
theorem escapedOptions_shields (hunits : ∀ u ∈ units, IsUnit q escape.toList u)
    (hp : start.toList.length ≤ p) (hlt : p < start.toList.length + units.flatten.length)
    (hq : src.Occurs p [q]) :
    (escapedOptions start q escape).Shields src start.toList.length p (p + 1) := by
  rw [Source.occurs_singleton_iff, hsrc, List.getElem?_append_right hp,
    List.getElem?_append_left (by omega)] at hq
  obtain ⟨before, behind, hsplit, h₁, h₂⟩ := escape_around hunits hq
  refine ⟨escape.toList, rfl, start.toList.length + before.length, by omega, by omega, by omega, ?_⟩
  have htokens : src.tokens.toList =
      (start.toList ++ before) ++ (escape.toList ++ (behind ++ [q])) := by
    rw [hsrc, hsplit]
    simp
  rw [Source.occurs_iff, htokens, ← List.length_append, List.drop_left]
  exact List.prefix_append _ _

/-- Behind the units, the escape shields the delimiter just if it ends with it there. -/
theorem escapedOptions_shields_end_iff (hq : q ∈ escape.toList) :
    (escapedOptions start q escape).Shields src start.toList.length
        (start.toList.length + units.flatten.length)
        (start.toList.length + units.flatten.length + 1) ↔
      escape.toList <:+ units.flatten ++ [q] := by
  have hne : escape.toList ≠ [] := List.ne_nil_of_mem hq
  have hsize := size_of_units hsrc
  have hslice : src.slice start.toList.length src.size = units.flatten ++ [q] := by
    rw [Source.slice_eq, Source.size, ← Array.length_toList, List.take_length, hsrc, List.drop_left]
  constructor
  · rintro ⟨_, ⟨⟩, s, hs, -, hend, hoccurs⟩
    have hwithin := hoccurs.le_size hne
    have hstop : s + escape.toList.length = src.size := by omega
    rw [Source.Occurs, hstop] at hoccurs
    refine ⟨src.slice start.toList.length s, ?_⟩
    rw [← hslice, ← hoccurs]
    exact (Source.slice_append hs (by omega)).symm
  · intro h
    have hpos := List.length_pos_iff.mpr hne
    have hlength := h.length_le
    rw [List.length_append, List.length_singleton] at hlength
    rw [← hslice] at h
    have hoccurs := Source.slice_eq_of_suffix (Nat.le_refl _) h
    have hstop : src.size - escape.toList.length + escape.toList.length = src.size := by omega
    refine ⟨escape.toList, rfl, src.size - escape.toList.length, by omega, by omega, by omega, ?_⟩
    rw [Source.Occurs, hstop]
    exact hoccurs

/-- Content is not broken off among the units. -/
theorem escapedOptions_unbroken (hunits : ∀ u ∈ units, IsUnit q escape.toList u)
    (hlt : p < start.toList.length + units.flatten.length) :
    ¬ (escapedOptions start q escape).Breach src start.toList.length p tokens := by
  rintro ⟨hbars, hle, hoccurs, hunshielded⟩
  obtain rfl := escapedOptions_bars_iff.mp hbars
  exact hunshielded (escapedOptions_shields hsrc hunits hle hlt hoccurs)

/-- The end delimiter stands behind the units. -/
theorem occurs_behind_units : src.Occurs (start.toList.length + units.flatten.length) [q] := by
  rw [Source.occurs_singleton_iff, hsrc, ← List.append_assoc, ← List.length_append]
  simp

/-- A delimiter behind the units that no escape shields is a breach, and content ends before
it. -/
theorem escapedOptions_reads_units {stop : Nat} (hunits : ∀ u ∈ units, IsUnit q escape.toList u)
    (hreads : (escapedOptions start q escape).ReadsTo src start.toList.length stop)
    (hunshielded : ¬ (escapedOptions start q escape).Shields src start.toList.length
      (start.toList.length + units.flatten.length)
      (start.toList.length + units.flatten.length + 1)) :
    stop = start.toList.length + units.flatten.length := by
  have hsize := size_of_units hsrc
  have hle := hreads.le_stop rfl escapedOptions_admits (by omega)
    fun _ _ hlt => escapedOptions_unbroken hsrc hunits hlt
  have hge := hreads.intact _ [q] ⟨escapedOptions_bars_iff.mpr rfl, Nat.le_add_right _ _,
    occurs_behind_units hsrc, hunshielded⟩
  rw [List.length_singleton] at hge
  omega

/-- Where an escape shields the delimiter behind the units there is no breach at all, and
content goes on to the end of the input. -/
theorem escapedOptions_reads_all {stop : Nat} (hunits : ∀ u ∈ units, IsUnit q escape.toList u)
    (hreads : (escapedOptions start q escape).ReadsTo src start.toList.length stop)
    (hshielded : (escapedOptions start q escape).Shields src start.toList.length
      (start.toList.length + units.flatten.length)
      (start.toList.length + units.flatten.length + 1)) :
    stop = src.size := by
  have hsize := size_of_units hsrc
  refine Nat.le_antisymm hreads.stop_le_size
    (hreads.le_stop rfl escapedOptions_admits (Nat.le_refl _) fun p s hp hbreach => ?_)
  rcases Nat.lt_or_ge p (start.toList.length + units.flatten.length) with hlt | hge
  · exact escapedOptions_unbroken hsrc hunits hlt hbreach
  · obtain rfl : p = start.toList.length + units.flatten.length := by omega
    obtain rfl := escapedOptions_bars_iff.mp hbreach.barred
    exact hbreach.unshielded hshielded

end

/-- Content between two delimiters may be empty, and is closed by the second one. -/
theorem escapedOptions_closes_iff {src : Source} {start escape : String} {q : Char} {s p : Nat} :
    (escapedOptions start q escape).Closes src s p ↔ src.Occurs p [q] := by
  constructor
  · rintro ⟨-, hclosed⟩
    simpa using hclosed _ rfl
  · refine fun hoccurs => ⟨.inr rfl, ?_⟩
    rintro e ⟨⟩
    simpa using hoccurs

/-- **Escaped content.** Units between the start delimiter and the end delimiter are read
back as they were written: the whole input is recognized, and the atom covers the units
and nothing else. Only where the escape occurs around the end delimiter behind them is it
taken for content, and then the end delimiter is missing. -/
theorem escaped_content_round_trips {start escape : String} {q : Char} {d : Delimited}
    (hbuild : Delimited.build (escapedOptions start q escape) = .ok d) (hq : q ∈ escape.toList)
    {units : List (List Char)} (hunits : ∀ u ∈ units, IsUnit q escape.toList u) (path : Path) :
    let src := Source.ofString (start ++ String.ofList units.flatten ++ String.ofList [q])
    (¬ SwallowsEnd q escape.toList units → d.recognize src path 0 =
        .success (.atom path.symbol ⟨start.toList.length, units.flatten.length⟩) src.size) ∧
      (SwallowsEnd q escape.toList units →
        d.recognize src path 0 = .failure (.partway path 0 src.size) 0) := by
  intro src
  have hsrc : src.tokens.toList = start.toList ++ (units.flatten ++ [q]) := by
    simp [src, Source.tokens_ofString]
  have hsize := size_of_units hsrc
  have hopen : src.Occurs 0 start.toList := by
    rw [Source.occurs_iff, hsrc]
    exact List.prefix_append _ _
  obtain ⟨-, _, stop, rfl, -, hcontent, hanswer⟩ :=
    ((Delimited.Options.built_of_build hbuild).recognize_cases path (Nat.zero_le _)).resolve_left
      fun h => h.1 hopen
  have hstart : 0 + (escapedOptions start q escape).start.toList.length = start.toList.length :=
    Nat.zero_add _
  rw [hstart, escapedOptions_closes_iff] at hanswer
  rw [hstart] at hcontent
  rw [← escape_suffix_iff hq hunits, ← escapedOptions_shields_end_iff hsrc hq]
  constructor
  · intro hunshielded
    obtain rfl := escapedOptions_reads_units hsrc hunits hcontent hunshielded
    have hclosing : (escapedOptions start q escape).closing.length = 1 := by
      simp [Delimited.Options.closing, escapedOptions]
    have hr := (hanswer.resolve_right fun h => h.1 (occurs_behind_units hsrc)).2
    rw [Nat.add_sub_cancel_left, hclosing, ← hsize] at hr
    exact hr
  · intro hshielded
    obtain rfl := escapedOptions_reads_all hsrc hunits hcontent hshielded
    have hopen : ¬ src.Occurs src.size [q] := by
      intro hoccurs
      have hbeyond := hoccurs.le_size (by simp)
      rw [List.length_singleton] at hbeyond
      omega
    exact (hanswer.resolve_left fun h => hopen h.1).2

/-- Text between single quotes, in which a quote is written twice. -/
def doubledRule : Delimited where
  start := ['\'']
  stop := some ['\'']
  legalSequences := []
  illegalSequences := [['\'']]
  legalRanges := .empty
  illegalRanges := .empty
  escape := some ['\'', '\'']
  acceptsEmpty := true
  start_ne_nil := by simp
  legal_ne_nil := Delimited.ne_nil_of_mem_nil
  illegal_ne_nil := by simp
  stop_mem_illegal := by simp

theorem build_doubled :
    Delimited.build (escapedOptions "'" '\'' "''") = .ok doubledRule := by
  simp [Delimited.build, escapedOptions, doubledRule, Delimited.longestFirst,
    Delimited.dropRepeats, Delimited.withStop, RangeSet.ofList, CharRange.normalize,
    RangeSet.empty]

/-- A quote written twice and nothing behind it: of the last three quotes the escape holds any
two, and none is left to end the text. -/
theorem doubled_swallows_end :
    Delimited.build (escapedOptions "'" '\'' "''") = .ok doubledRule ∧
      '\'' ∈ "''".toList ∧
      (∀ u ∈ [['\'', '\'']], IsUnit '\'' "''".toList u) ∧
      doubledRule.recognize (Source.ofString
          ("'" ++ String.ofList [['\'', '\'']].flatten ++ String.ofList ['\'']))
        (.root "text") 0 = .failure (.partway (.root "text") 0 4) 0 := by
  refine ⟨build_doubled, by decide, ?_, rfl⟩
  exact List.forall_mem_singleton.mpr (.inl rfl)

/-- With a letter behind it the text is read. -/
theorem escaped_content_round_trips_doubled :
    Delimited.build (escapedOptions "'" '\'' "''") = .ok doubledRule ∧
      '\'' ∈ "''".toList ∧
      (∀ u ∈ [['\'', '\''], ['s']], IsUnit '\'' "''".toList u) ∧
      ¬ SwallowsEnd '\'' "''".toList [['\'', '\''], ['s']] ∧
      doubledRule.recognize (Source.ofString
          ("'" ++ String.ofList [['\'', '\''], ['s']].flatten ++ String.ofList ['\'']))
        (.root "text") 0 = .success (.atom "text" ⟨1, 3⟩) 5 := by
  have hunits : ∀ u ∈ [['\'', '\''], ['s']], IsUnit '\'' "''".toList u := by
    refine List.forall_mem_cons.mpr ⟨.inl rfl, List.forall_mem_singleton.mpr ?_⟩
    exact .inr ⟨'s', rfl, by decide, by decide⟩
  have hswallows : ¬ SwallowsEnd '\'' "''".toList [['\'', '\''], ['s']] := by
    rintro (h | ⟨-, h⟩) <;> revert h <;> decide
  exact ⟨build_doubled, by decide, hunits, hswallows,
    (escaped_content_round_trips build_doubled (by decide) hunits (.root "text")).1 hswallows⟩

end ConcreteSyntax
