import ConcreteSyntax.Proofs.Mirrored
import ConcreteSyntax.Proofs.Terminal.Content
import ConcreteSyntax.Terminal

/-!
# Terminals look ahead only

A terminal asks for tokens from where it is entered on, and its atom has the symbol of
the path and nothing else of it. Within delimited content tokens before the current one
are looked at again, to find illegal sequences and escapes, but none before the content.
-/

namespace ConcreteSyntax

variable {src src' : Source} {k : Nat}

/-! ## Delimited content -/

namespace Delimited

variable (d : Delimited) (h : src.Tail src' k) {start p : Nat}

include h

theorem escaped_shift {length : Nat} :
    d.Escaped src (start + k) (p + k) length ↔ d.Escaped src' start p length := by
  constructor
  · rintro ⟨esc, hesc, s, hstart, hcovered, hreach, hsize, hslice⟩
    obtain ⟨s, rfl⟩ : ∃ t, s = t + k := ⟨s - k, by omega⟩
    rw [Nat.add_right_comm] at hsize hslice
    rw [h.le_size_iff] at hsize
    rw [h.slice_shift] at hslice
    exact ⟨esc, hesc, s, by omega, by omega, by omega, hsize, hslice⟩
  · rintro ⟨esc, hesc, s, hstart, hcovered, hreach, hsize, hslice⟩
    refine ⟨esc, hesc, s + k, by omega, by omega, by omega, ?_, ?_⟩
    · rw [Nat.add_right_comm, h.le_size_iff]
      exact hsize
    · rw [Nat.add_right_comm, h.slice_shift]
      exact hslice

theorem isEscaped_shift {length : Nat} (hlength : start + length ≤ p) :
    d.isEscaped src (start + k) (p + k) length = d.isEscaped src' start p length := by
  obtain ⟨b, hb, hiff⟩ := d.isEscaped_spec src
    (show start + k + length ≤ p + k by omega)
  obtain ⟨b', hb', hiff'⟩ := d.isEscaped_spec src' hlength
  rw [hb, hb', Except.ok.injEq, Bool.eq_iff_iff, hiff, hiff', d.escaped_shift h]

theorem suffixAmong_shift (start p : Nat) : ∀ ss : List (List Char),
    d.suffixAmong src (start + k) (p + k) ss = d.suffixAmong src' start p ss
  | [] => rfl
  | s :: rest => by
      rw [suffixAmong, suffixAmong, h.endsWith_shift, suffixAmong_shift start p rest]
      by_cases hends : src'.endsWith start p s = true
      · have hlength : start + s.length ≤ p := by
          simp only [Source.endsWith, Bool.and_eq_true, decide_eq_true_eq] at hends
          exact hends.1
        rw [if_pos hends, if_pos hends, d.isEscaped_shift h hlength]
      · rw [if_neg hends, if_neg hends]

theorem illegalSuffix_shift (hp : start ≤ p) (hsize : p ≤ src'.size) :
    d.illegalSuffix src (start + k) (p + k) = d.illegalSuffix src' start p := by
  rw [illegalSuffix, illegalSuffix, d.suffixAmong_shift h, Source.within?_of_le hp hsize,
    Source.within?_of_le (Nat.add_le_add_right hp k) (h.le_size_iff.mpr hsize)]

/-- With one token more. -/
theorem illegalSuffix_succ_shift (hp : start ≤ p) (hsize : p < src'.size) :
    d.illegalSuffix src (start + k) (p + k + 1) = d.illegalSuffix src' start (p + 1) := by
  rw [Nat.add_right_comm]
  exact d.illegalSuffix_shift h (Nat.le_succ_of_le hp) hsize

/-- What is given back lies within the content. -/
theorem readTokens_shift : ∀ (rest : List Char) (p : Nat), rest = src'.remaining p → start ≤ p →
    d.readTokens src (start + k) rest (p + k) = (d.readTokens src' start rest p).map (· + k)
  | [], p, _, _ => rfl
  | c :: rest, p, hrest, hp => by
      obtain ⟨htoken, hrest'⟩ := Source.remaining_cons hrest.symm
      have hlt := Source.lt_size_of_token? htoken
      have hnext := readTokens_shift rest (p + 1) hrest' (Nat.le_succ_of_le hp)
      rw [Nat.add_right_comm] at hnext
      rw [readTokens, readTokens, d.illegalSuffix_succ_shift h hp hlt]
      by_cases hc : d.legalToken c = true
      · rw [if_pos hc, if_pos hc]
        rcases d.illegalSuffix_spec src' (Nat.le_succ_of_le hp) hlt with
          ⟨s, -, hs, hsuffix, -⟩ | ⟨hs, -⟩
        · have hlength := hsuffix.length_le
          rw [Source.length_slice_of_le hlt] at hlength
          have hback : p + k + 1 - s.length = p + 1 - s.length + k := by omega
          have hinside : p + 1 - s.length ≤ src'.size := by omega
          rw [hs]
          show (distance s.length (p + k + 1) >>= src.seek) =
            (distance s.length (p + 1) >>= src'.seek).map (· + k)
          rw [distance_of_le (by omega), distance_of_le (by omega), hback]
          show src.seek (p + 1 - s.length + k) = (src'.seek (p + 1 - s.length)).map (· + k)
          rw [Source.seek_of_le hinside, Source.seek_of_le (h.le_size_iff.mpr hinside)]
          rfl
        · rw [hs]
          exact hnext
      · rw [if_neg hc, if_neg hc]
        rfl

theorem bringsIllegal_shift : ∀ (count p : Nat), start ≤ p → p + count ≤ src'.size →
    d.bringsIllegal src (start + k) count (p + k) = d.bringsIllegal src' start count p
  | 0, p, _, _ => rfl
  | count + 1, p, hp, hsize => by
      have hnext := bringsIllegal_shift count (p + 1) (Nat.le_succ_of_le hp) (by omega)
      rw [Nat.add_right_comm] at hnext
      rw [bringsIllegal, bringsIllegal, d.illegalSuffix_succ_shift h hp (by omega), hnext]

theorem readSequences_shift : ∀ (left p : Nat), start ≤ p → p ≤ src'.size →
    d.readSequences src (start + k) left (p + k) = (d.readSequences src' start left p).map (· + k)
  | 0, p, _, _ => rfl
  | left + 1, p, hp, hsize => by
      have hcomes : src.comesNext (p + k) = src'.comesNext p := funext (h.comesNext_shift p)
      rw [readSequences, readSequences, hcomes]
      cases hfind : d.legalSequences.find? (src'.comesNext p) with
      | none => rfl
      | some s =>
          have hslice : src'.slice p (p + s.length) = s := by
            simpa [Source.comesNext] using List.find?_some hfind
          have hend := Source.le_size_of_slice_eq hsize hslice
          have hnext := readSequences_shift left (p + s.length) (by omega) hend
          by_cases hlegal : s.all d.legalToken = true
          · simp only [hlegal, if_true, d.bringsIllegal_shift h s.length p hp hend,
              h.advance?_shift, Source.advance?_eq_some hend]
            rcases d.bringsIllegal_spec src' s.length p hp hend with ⟨hb, -⟩ | ⟨hb, -⟩ <;> rw [hb]
            · rfl
            · exact hnext
          · simp only [if_neg hlegal]
            rfl

theorem readContent_shift (hstart : start ≤ src'.size) :
    d.readContent src (start + k) = (d.readContent src' start).map (· + k) := by
  have hleft : src.size - (start + k) = src'.size - start := by
    rw [h.size_eq]
    omega
  rw [readContent, readContent, hleft, h.remaining_shift]
  split
  · exact d.readTokens_shift h _ start rfl (Nat.le_refl _)
  · exact d.readSequences_shift h _ start (Nat.le_refl _) hstart

theorem recognize_mirrors : NodeRecognizer.Mirrors k (d.recognize src) (d.recognize src') := by
  intro path path' p hsymbol
  refine Reply.Mirrors.restoring h p ?_
  rw [h.expect?_shift]
  cases hexpect : src'.expect? p d.start with
  | none => exact .failure p (.here path path' p)
  | some start =>
      obtain ⟨hslice, rfl⟩ := Source.expect?_eq_some_iff.mp hexpect
      have hstart : p + d.start.length ≤ src'.size := by
        have hlength := congrArg List.length hslice
        have hpos := List.length_pos_iff.mpr d.start_ne_nil
        rw [Source.length_slice] at hlength
        omega
      obtain ⟨stop, hstop, -⟩ := d.readContent_spec src' hstart
      simp only [Option.map_some, d.readContent_shift h hstart, hstop, Except.map, Reply.check_ok]
      refine .check (Segment.ofBounds_mirrors k _ stop) ?_
      rintro _ content rfl
      rw [Segment.isEmpty_shift]
      split
      · refine .check (distance_mirrors k p _) ?_
        rintro length _ rfl
        exact .failure stop (.partway path path' p length)
      · cases d.stop with
        | none =>
            refine .success stop ?_
            rw [Node.shift, hsymbol]
        | some closing =>
            simp only [h.expect?_shift]
            cases src'.expect? stop closing with
            | some q =>
                refine .success q ?_
                rw [Node.shift, hsymbol]
            | none =>
                refine .check (distance_mirrors k p stop) ?_
                rintro length _ rfl
                exact .failure stop (.partway path path' p length)

end Delimited

/-! ## The other terminals -/

theorem Literal.readFrom_shift (l : Literal) (h : src.Tail src' k) :
    ∀ (expected : List Char) (p : Nat),
    l.readFrom src expected (p + k) = (l.readFrom src' expected p).map (· + k)
  | [], p => rfl
  | e :: rest, p => by
      have hnext := l.readFrom_shift h rest (p + 1)
      rw [Nat.add_right_comm] at hnext
      rw [readFrom, readFrom, h.token?_eq]
      cases src'.token? p with
      | none => rfl
      | some c =>
          simp only [hnext]
          split
          · rfl
          · rfl

theorem Literal.recognize_mirrors (l : Literal) (h : src.Tail src' k) :
    NodeRecognizer.Mirrors k (l.recognize src) (l.recognize src') := by
  intro path path' p hsymbol
  simp only [recognize, l.readFrom_shift h]
  cases l.readFrom src' l.tokens p with
  | some q =>
      refine .check (Segment.ofBounds_mirrors k p q) ?_
      rintro _ seg rfl
      refine .success q ?_
      rw [Node.shift, hsymbol]
  | none =>
      refine .check (h.seek_mirrors p) ?_
      rintro _ q rfl
      exact .failure q (.here path path' p)

theorem CharClass.recognize_mirrors (c : CharClass) (h : src.Tail src' k) :
    NodeRecognizer.Mirrors k (c.recognize src) (c.recognize src') := by
  intro path path' p hsymbol
  simp only [recognize, h.token?_eq]
  cases src'.token? p with
  | none => exact .failure p (.here path path' p)
  | some t =>
      simp only [Nat.add_right_comm p k 1]
      split
      · refine .check (Segment.ofBounds_mirrors k p (p + 1)) ?_
        rintro _ seg rfl
        refine .success (p + 1) ?_
        rw [Node.shift, hsymbol]
      · exact .failure p (.here path path' p)

theorem Terminal.recognizeEnd_mirrors (h : src.Tail src' k) :
    NodeRecognizer.Mirrors k (recognizeEnd src) (recognizeEnd src') := by
  intro path path' p hsymbol
  simp only [recognizeEnd, h.size_eq, Nat.add_le_add_iff_right]
  split
  · refine .success p ?_
    rw [Node.shift, hsymbol]
    rfl
  · exact .failure p (.here path path' p)

/-- The windows of a pattern start where it is entered, and as many tokens are left. -/
theorem Pattern.recognizeWith_mirrors (mode : MatchMode) (accepts : List Char → Bool)
    (h : src.Tail src' k) :
    NodeRecognizer.Mirrors k (recognizeWith mode accepts src)
      (recognizeWith mode accepts src') := by
  intro path path' p hsymbol
  simp only [recognizeWith, h.window_shift, h.size_eq]
  refine .check (distance_mirrors k p src'.size) ?_
  rintro available _ rfl
  cases mode.length? (fun n => accepts (src'.window ⟨p, n⟩)) available with
  | none => exact .failure p (.here path path' p)
  | some n =>
      have hposition : ((src'.advance? p n).map (· + k)).getD (p + k) =
          (src'.advance? p n).getD p + k := by
        cases src'.advance? p n <;> rfl
      simp only [h.advance?_shift, hposition]
      refine .success _ ?_
      rw [Node.shift, hsymbol]
      rfl

/-- **Terminals.** What comes of a terminal depends on the tokens ahead, and the symbol
of its path. -/
theorem Terminal.recognize_mirrors (t : Terminal) (h : src.Tail src' k) :
    NodeRecognizer.Mirrors k (t.recognize src) (t.recognize src') := by
  cases t with
  | literal r => exact r.recognize_mirrors h
  | charClass r => exact r.recognize_mirrors h
  | delimited r => exact r.recognize_mirrors h
  | endOfInput => exact recognizeEnd_mirrors h
  | pattern r => exact Pattern.recognizeWith_mirrors r.mode r.accepts h

end ConcreteSyntax
