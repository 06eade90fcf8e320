import ConcreteSyntax.Proofs.Slices
import ConcreteSyntax.Terminal.Delimited

/-!
# Delimited content

What the content between two delimiters may be, said without the reading: all its
tokens are legal, nothing in it ends with an illegal sequence unless the escape
covers that, and with legal sequences it is made of them. Each part of the reading
is shown to ask for tokens of the input only and to decide what it is named for;
from these, content is read up to a place where it is such content.
-/

namespace ConcreteSyntax.Delimited

variable (d : Delimited) (src : Source) {start p : Nat}

/-- The `length` tokens before a position lie within an occurrence of the escape,
which itself lies within the input and does not start before the content. -/
def Escaped (d : Delimited) (src : Source) (contentStart position length : Nat) : Prop :=
  ∃ esc ∈ d.escape, ∃ s, contentStart ≤ s ∧ s + length ≤ position ∧ position ≤ s + esc.length ∧
    s + esc.length ≤ src.size ∧ src.slice s (s + esc.length) = esc

/-- Up to a position, content ends with an illegal sequence that no escape covers. -/
def EndsIllegally (d : Delimited) (src : Source) (contentStart position : Nat) : Prop :=
  ∃ s ∈ d.illegalSequences, s <:+ src.slice contentStart position ∧
    ¬ d.Escaped src contentStart position s.length

/-- Content that the rule admits between two positions. -/
structure Content (d : Delimited) (src : Source) (start stop : Nat) : Prop where
  start_le_stop : start ≤ stop
  stop_le_size : stop ≤ src.size
  legal : ∀ c ∈ src.slice start stop, d.legalToken c = true
  intact : ∀ p, start ≤ p → p ≤ stop → ¬ d.EndsIllegally src start p
  pieces : d.legalSequences ≠ [] → ∃ ss : List (List Char),
    (∀ s ∈ ss, s ∈ d.legalSequences) ∧ src.slice start stop = ss.flatten

/-- The legal sequences that are read one after the other, each the first that comes next,
lead to a position. -/
inductive Pieces (d : Delimited) (src : Source) (start : Nat) : Nat → Prop where
  | nil : Pieces d src start start
  | snoc {p : Nat} {s : List Char} (before : Pieces d src start p)
      (next : d.legalSequences.find? (src.comesNext p) = some s) :
      Pieces d src start (p + s.length)

theorem Pieces.flatten {d : Delimited} {src : Source} {start p : Nat}
    (h : d.Pieces src start p) : start ≤ p ∧
      ∃ ss : List (List Char), (∀ s ∈ ss, s ∈ d.legalSequences) ∧ src.slice start p = ss.flatten := by
  induction h with
  | nil => exact ⟨Nat.le_refl _, [], by simp, by simp⟩
  | @snoc p s _ next ih =>
      obtain ⟨hle, ss, hss, hflatten⟩ := ih
      have hnext : src.slice p (p + s.length) = s := by
        simpa [Source.comesNext] using List.find?_some next
      refine ⟨Nat.le_trans hle (Nat.le_add_right _ _), ss ++ [s], ?_, ?_⟩
      · intro t ht
        rcases List.mem_append.mp ht with ht | ht
        · exact hss t ht
        · exact List.mem_singleton.mp ht ▸ List.mem_of_find?_eq_some next
      · rw [Source.slice_append hle (Nat.le_add_right _ _), hnext, hflatten]
        simp

/-- Why content that is read token by token ends at a position: no token is left, the next
one is not legal, or legal tokens from there on are an illegal sequence that no escape
covers and that is completed before any other. -/
inductive TokensEnd (d : Delimited) (src : Source) (start : Nat) : Nat → Prop where
  | exhausted {p : Nat} (noToken : src.size ≤ p) : TokensEnd d src start p
  | refused {p : Nat} {c : Char} (token : src.token? p = some c)
      (illegal : d.legalToken c = false) : TokensEnd d src start p
  | completed {p : Nat} {s : List Char} (member : s ∈ d.illegalSequences)
      (occurs : src.slice p (p + s.length) = s) (legal : ∀ c ∈ s, d.legalToken c = true)
      (uncovered : ¬ d.Escaped src start (p + s.length) s.length)
      (first : ∀ k, start ≤ k → k < p + s.length → ¬ d.EndsIllegally src start k) :
      TokensEnd d src start p

/-- Why content that is read sequence by sequence ends at a position: no legal sequence
comes next, or the one that does has an illegal token or completes an illegal sequence. -/
inductive SequencesEnd (d : Delimited) (src : Source) (start : Nat) : Nat → Prop where
  | exhausted {p : Nat} (noSequence : d.legalSequences.find? (src.comesNext p) = none) :
      SequencesEnd d src start p
  | refused {p : Nat} {s : List Char} {c : Char}
      (next : d.legalSequences.find? (src.comesNext p) = some s) (member : c ∈ s)
      (illegal : d.legalToken c = false) : SequencesEnd d src start p
  | completed {p k : Nat} {s : List Char}
      (next : d.legalSequences.find? (src.comesNext p) = some s) (behind : p < k)
      (within : k ≤ p + s.length) (illegal : d.EndsIllegally src start k) :
      SequencesEnd d src start p

/-- Content that the rule admits between two positions and that cannot go on. -/
structure Read (d : Delimited) (src : Source) (start stop : Nat) : Prop
    extends Content d src start stop where
  tokens : d.legalSequences = [] → d.TokensEnd src start stop
  sequences : d.legalSequences ≠ [] → d.Pieces src start stop ∧ d.SequencesEnd src start stop

/-! ## Illegal sequences -/

theorem isEscaped_spec {position length : Nat} (h : start + length ≤ position) :
    ∃ b, d.isEscaped src start position length = .ok b ∧
      (b = true ↔ d.Escaped src start position length) := by
  unfold isEscaped Escaped
  cases hesc : d.escape with
  | none => exact ⟨false, rfl, by simp⟩
  | some esc =>
      by_cases hshort : esc.length < length
      · refine ⟨false, by simp [hshort], ?_⟩
        simp only [Bool.false_eq_true, Option.mem_some_iff, exists_eq_left', false_iff]
        rintro ⟨s, -, h₁, h₂, -⟩
        omega
      · simp only [hshort, if_false, distance_of_le (show length ≤ position by omega),
          distance_of_le (Nat.le_of_not_lt hshort)]
        refine ⟨_, rfl, ?_⟩
        simp only [List.any_eq_true, List.mem_range'_1, Bool.and_eq_true, decide_eq_true_eq,
          Option.mem_some_iff, exists_eq_left']
        -- an alignment of the escape that the search tries, and one that covers the tokens
        constructor
        · rintro ⟨s, ⟨h₁, h₂⟩, h₃, h₄⟩
          by_cases hin : s + esc.length ≤ src.size
          · rw [Source.slice?_of_le (Nat.le_add_right _ _) hin] at h₄
            exact ⟨s, by omega, by omega, h₃, hin, by simpa using h₄⟩
          · simp [Source.slice?, Source.within?, hin, Except.map] at h₄
        · rintro ⟨s, h₁, h₂, h₃, h₄, h₅⟩
          refine ⟨s, ⟨by omega, by omega⟩, h₃, ?_⟩
          rw [Source.slice?_of_le (Nat.le_add_right _ _) h₄]
          simpa using h₅

theorem suffixAmong_spec (hp : start ≤ p) (hsize : p ≤ src.size) : ∀ ss : List (List Char),
    (∃ s ∈ ss, d.suffixAmong src start p ss = .ok (some s.length) ∧ s <:+ src.slice start p ∧
        ¬ d.Escaped src start p s.length) ∨
      d.suffixAmong src start p ss = .ok none ∧
        ∀ s ∈ ss, s <:+ src.slice start p → d.Escaped src start p s.length
  | [] => Or.inr ⟨rfl, by simp⟩
  | s :: rest => by
      have later (hs : d.suffixAmong src start p (s :: rest) = d.suffixAmong src start p rest)
          (hesc : s <:+ src.slice start p → d.Escaped src start p s.length) :
          (∃ s' ∈ s :: rest, d.suffixAmong src start p (s :: rest) = .ok (some s'.length) ∧
              s' <:+ src.slice start p ∧ ¬ d.Escaped src start p s'.length) ∨
            d.suffixAmong src start p (s :: rest) = .ok none ∧
              ∀ s' ∈ s :: rest, s' <:+ src.slice start p → d.Escaped src start p s'.length := by
        rw [hs]
        rcases suffixAmong_spec hp hsize rest with ⟨s', hs', h₁, h₂, h₃⟩ | ⟨h₁, h₂⟩
        · exact Or.inl ⟨s', List.mem_cons_of_mem _ hs', h₁, h₂, h₃⟩
        · exact Or.inr ⟨h₁, List.forall_mem_cons.mpr ⟨hesc, h₂⟩⟩
      by_cases hends : src.endsWith start p s
      · have hsuffix := (Source.endsWith_iff hp hsize s).mp hends
        have hlength : start + s.length ≤ p := by
          have := hsuffix.length_le
          rw [Source.length_slice_of_le hsize] at this
          omega
        obtain ⟨b, hb, hiff⟩ := d.isEscaped_spec src hlength
        cases b with
        | true =>
            exact later (by rw [suffixAmong, if_pos hends, hb]; rfl) fun _ => hiff.mp rfl
        | false =>
            refine Or.inl ⟨s, List.mem_cons_self, ?_, hsuffix, fun h => by simpa using hiff.mpr h⟩
            rw [suffixAmong, if_pos hends, hb]
            rfl
      · refine later (by rw [suffixAmong, if_neg hends]) fun hsuffix => ?_
        exact absurd ((Source.endsWith_iff hp hsize s).mpr hsuffix) hends

/-- **Illegal suffixes.** One that no escape covers is found, with its length; if
none is found there is none. -/
theorem illegalSuffix_spec (hp : start ≤ p) (hsize : p ≤ src.size) :
    (∃ s ∈ d.illegalSequences, d.illegalSuffix src start p = .ok (some s.length) ∧
        s <:+ src.slice start p ∧ ¬ d.Escaped src start p s.length) ∨
      d.illegalSuffix src start p = .ok none ∧ ¬ d.EndsIllegally src start p := by
  have heq : d.illegalSuffix src start p = d.suffixAmong src start p d.illegalSequences := by
    rw [illegalSuffix, Source.within?_of_le hp hsize]
    rfl
  rw [heq]
  rcases d.suffixAmong_spec src hp hsize d.illegalSequences with h | ⟨h, hnone⟩
  · exact Or.inl h
  · refine Or.inr ⟨h, ?_⟩
    rintro ⟨s, hs, hsuffix, hesc⟩
    exact hesc (hnone s hs hsuffix)

/-- Nothing has gone wrong before the first token. -/
theorem not_endsIllegally_start : ¬ d.EndsIllegally src start start := by
  rintro ⟨s, hs, hsuffix, -⟩
  rw [Source.slice_self] at hsuffix
  exact d.illegal_ne_nil s hs (List.suffix_nil.mp hsuffix)

/-! ## Reading token by token -/

theorem readTokens_spec : ∀ (rest : List Char) (p : Nat), rest = src.remaining p → start ≤ p →
    p ≤ src.size → (∀ c ∈ src.slice start p, d.legalToken c = true) →
    (∀ k, start ≤ k → k ≤ p → ¬ d.EndsIllegally src start k) →
    ∃ stop, d.readTokens src start rest p = .ok stop ∧ start ≤ stop ∧ stop ≤ src.size ∧
      (∀ c ∈ src.slice start stop, d.legalToken c = true) ∧
      (∀ k, start ≤ k → k ≤ stop → ¬ d.EndsIllegally src start k) ∧ d.TokensEnd src start stop
  | [], p, hrest, hp, hsize, hlegal, hintact =>
      ⟨p, rfl, hp, hsize, hlegal, hintact, .exhausted (Source.remaining_eq_nil_iff.mp hrest.symm)⟩
  | c :: rest, p, hrest, hp, hsize, hlegal, hintact => by
      obtain ⟨htoken, hrest'⟩ := Source.remaining_cons hrest.symm
      have hlt := Source.lt_size_of_token? htoken
      by_cases hc : d.legalToken c
      · have hlegal' : ∀ x ∈ src.slice start (p + 1), d.legalToken x = true := by
          intro x hx
          rw [Source.slice_snoc htoken hp, List.mem_append, List.mem_singleton] at hx
          rcases hx with hx | rfl
          · exact hlegal x hx
          · exact hc
        rw [readTokens, if_pos hc]
        rcases d.illegalSuffix_spec src (Nat.le_succ_of_le hp) hlt with
          ⟨s, hs, h, hsuffix, huncovered⟩ | ⟨h, hnone⟩
        · -- the illegal sequence is given back, and what is left was read before
          have hlength := hsuffix.length_le
          have hpos := List.length_pos_iff.mpr (d.illegal_ne_nil s hs)
          rw [Source.length_slice_of_le hlt] at hlength
          have hstop : p + 1 - s.length + s.length = p + 1 := by omega
          refine ⟨p + 1 - s.length, ?_, by omega, by omega, ?_, ?_, ?_⟩
          · rw [h]
            show (distance s.length (p + 1) >>= src.seek) = _
            rw [distance_of_le (by omega)]
            exact Source.seek_of_le (by omega)
          · intro x hx
            exact hlegal x ((Source.mem_slice_append (b := p + 1 - s.length)
              (by omega) (by omega)).mpr (Or.inl hx))
          · exact fun k hk hle => hintact k hk (by omega)
          · refine .completed hs ?_ (fun x hx => hlegal' x (hsuffix.subset hx)) ?_ ?_
            · rw [hstop]
              exact Source.slice_eq_of_suffix hlt hsuffix
            · rw [hstop]
              exact huncovered
            · exact fun k hk hle => hintact k hk (by omega)
        · rw [h]
          refine readTokens_spec rest (p + 1) hrest' (Nat.le_succ_of_le hp) hlt hlegal' ?_
          intro k hk hle
          rcases Nat.lt_or_eq_of_le hle with hlt | rfl
          · exact hintact k hk (Nat.le_of_lt_succ hlt)
          · exact hnone
      · refine ⟨p, by rw [readTokens, if_neg hc], hp, hsize, hlegal, hintact, ?_⟩
        exact .refused htoken (Bool.eq_false_iff.mpr hc)

/-! ## Reading sequence by sequence -/

theorem bringsIllegal_spec : ∀ (count p : Nat), start ≤ p → p + count ≤ src.size →
    (d.bringsIllegal src start count p = .ok true ∧
        ∃ k, p < k ∧ k ≤ p + count ∧ d.EndsIllegally src start k) ∨
      d.bringsIllegal src start count p = .ok false ∧
        ∀ k, p < k → k ≤ p + count → ¬ d.EndsIllegally src start k
  | 0, p, _, _ => Or.inr ⟨rfl, fun k h₁ h₂ => by omega⟩
  | count + 1, p, hp, hsize => by
      rw [bringsIllegal]
      have hsize' : p + 1 ≤ src.size := by omega
      rcases d.illegalSuffix_spec src (Nat.le_succ_of_le hp) hsize' with
        ⟨s, hs, h, hsuffix, huncovered⟩ | ⟨h, hnone⟩ <;> rw [h]
      · exact Or.inl ⟨rfl, p + 1, Nat.lt_succ_self p, by omega, s, hs, hsuffix, huncovered⟩
      · rcases bringsIllegal_spec count (p + 1) (Nat.le_succ_of_le hp) (by omega) with
          ⟨h, k, h₁, h₂, hk⟩ | ⟨h, hlater⟩
        · exact Or.inl ⟨h, k, by omega, by omega, hk⟩
        · refine Or.inr ⟨h, fun k h₁ h₂ => ?_⟩
          rcases Nat.lt_or_eq_of_le (Nat.succ_le_of_lt h₁) with hlt | rfl
          · exact hlater k hlt (by omega)
          · exact hnone

/-- At the end of the input no legal sequence comes next. -/
theorem find?_comesNext_eq_none (hp : p ≤ src.size) (hend : src.size ≤ p) :
    d.legalSequences.find? (src.comesNext p) = none := by
  refine List.find?_eq_none.mpr fun s hs hnext => ?_
  have hsize := Source.le_size_of_slice_eq hp (by simpa [Source.comesNext] using hnext)
  have hpos := List.length_pos_iff.mpr (d.legal_ne_nil s hs)
  omega

theorem readSequences_spec : ∀ (left p : Nat), src.size ≤ p + left → d.Content src start p →
    d.Pieces src start p →
    ∃ stop, d.readSequences src start left p = .ok stop ∧ d.Content src start stop ∧
      d.Pieces src start stop ∧ d.SequencesEnd src start stop
  | 0, p, hleft, h, hpieces =>
      ⟨p, rfl, h, hpieces, .exhausted (d.find?_comesNext_eq_none src h.stop_le_size hleft)⟩
  | left + 1, p, hleft, h, hpieces => by
      rw [readSequences]
      cases hfind : d.legalSequences.find? (src.comesNext p) with
      | none => exact ⟨p, rfl, h, hpieces, .exhausted hfind⟩
      | some s =>
          by_cases hlegal : s.all d.legalToken
          · have hnext : src.slice p (p + s.length) = s := by
              simpa [Source.comesNext] using List.find?_some hfind
            have hsize := Source.le_size_of_slice_eq h.stop_le_size hnext
            have hpos := List.length_pos_iff.mpr
              (d.legal_ne_nil s (List.mem_of_find?_eq_some hfind))
            simp only [hlegal, if_true]
            rcases d.bringsIllegal_spec src s.length p h.start_le_stop hsize with
              ⟨hb, k, h₁, h₂, hk⟩ | ⟨hb, hintact⟩ <;> rw [hb]
            · exact ⟨p, rfl, h, hpieces, .completed hfind h₁ h₂ hk⟩
            · rw [Source.advance?_eq_some hsize]
              have hpieces' := hpieces.snoc hfind
              refine readSequences_spec left (p + s.length) (by omega) ?_ hpieces'
              refine ⟨hpieces'.flatten.1, hsize, ?_, ?_, fun _ => hpieces'.flatten.2⟩
              · intro c hc
                rw [Source.mem_slice_append h.start_le_stop (Nat.le_add_right _ _), hnext] at hc
                exact hc.elim (h.legal c) (List.all_eq_true.mp hlegal c)
              · intro k hk hle
                rcases Nat.lt_or_ge p k with hlt | hge
                · exact hintact k hlt hle
                · exact h.intact k hk hge
          · obtain ⟨c, hc, hillegal⟩ : ∃ c ∈ s, d.legalToken c = false := by simpa using hlegal
            exact ⟨p, by simp [hlegal], h, hpieces, .refused hfind hc hillegal⟩

/-- **Content.** Reading ends within the input, with content that the rule admits, and
where that cannot go on. -/
theorem readContent_read (hstart : start ≤ src.size) :
    ∃ stop, d.readContent src start = .ok stop ∧ d.Read src start stop := by
  have hintact : ∀ k, start ≤ k → k ≤ start → ¬ d.EndsIllegally src start k := by
    intro k h₁ h₂
    rw [Nat.le_antisymm h₂ h₁]
    exact d.not_endsIllegally_start src
  rw [readContent]
  by_cases hseq : d.legalSequences.isEmpty
  · rw [if_pos hseq]
    rw [List.isEmpty_iff] at hseq
    obtain ⟨stop, h, h₁, h₂, h₃, h₄, hend⟩ := d.readTokens_spec src _ start rfl
      (Nat.le_refl _) hstart (by simp) hintact
    exact ⟨stop, h, ⟨h₁, h₂, h₃, h₄, fun hne => absurd hseq hne⟩, fun _ => hend,
      fun hne => absurd hseq hne⟩
  · rw [if_neg hseq]
    rw [List.isEmpty_iff] at hseq
    obtain ⟨stop, h, hcontent, hpieces, hend⟩ := d.readSequences_spec src (src.size - start) start
      (by omega) ⟨Nat.le_refl _, hstart, by simp, hintact, fun _ => ⟨[], by simp, by simp⟩⟩ .nil
    exact ⟨stop, h, hcontent, fun hnil => absurd hnil hseq, fun _ => ⟨hpieces, hend⟩⟩

theorem readContent_spec (hstart : start ≤ src.size) :
    ∃ stop, d.readContent src start = .ok stop ∧ d.Content src start stop := by
  obtain ⟨stop, h, hread⟩ := d.readContent_read src hstart
  exact ⟨stop, h, hread.toContent⟩

end ConcreteSyntax.Delimited
