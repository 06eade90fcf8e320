import ConcreteSyntax.Proofs.Orderly
import ConcreteSyntax.Proofs.Terminal.Content
import ConcreteSyntax.Proofs.Terminal.Windows
import Mathlib.Data.List.Forall2

/-!
# What terminals read

A terminal accepts tokens from one position to another and covers some of them
with its atom. This is said for each kind of terminal in its own terms, without
the reading; recognition then either gives an atom over such tokens or fails and
leaves the cursor where it was.
-/

namespace ConcreteSyntax

variable {src : Source} {p q : Nat}

/-! ## Literals -/

/-- Token by token, the literal takes these tokens. -/
def Literal.Matches (l : Literal) (tokens : List Char) : Prop :=
  l.tokens.Forall₂ (fun expected actual => l.admits expected actual = true) tokens

theorem Literal.readFrom_eq_some_iff (l : Literal) : ∀ (es : List Char) (p q : Nat),
    l.readFrom src es p = some q ↔
      es.Forall₂ (fun expected actual => l.admits expected actual = true) (src.slice p q) ∧
        q = p + es.length
  | [], p, q => by
      simp only [readFrom, Option.some.injEq, List.forall₂_nil_left_iff, List.length_nil,
        Nat.add_zero]
      constructor
      · rintro rfl
        exact ⟨src.slice_self p, rfl⟩
      · rintro ⟨-, rfl⟩
        rfl
  | e :: rest, p, q => by
      rw [readFrom]
      cases htoken : src.token? p with
      | none =>
          have hend := Source.token?_eq_none_iff.mp htoken
          have hnil : src.slice p q = [] :=
            List.eq_nil_of_length_eq_zero (by rw [Source.length_slice]; omega)
          simp [hnil]
      | some c =>
          by_cases hc : l.admits e c
          · simp only [hc, if_true, l.readFrom_eq_some_iff rest (p + 1) q, List.length_cons]
            constructor
            · rintro ⟨h, rfl⟩
              rw [Source.slice_cons htoken (by omega)]
              exact ⟨.cons hc h, by omega⟩
            · rintro ⟨h, rfl⟩
              rw [Source.slice_cons htoken (by omega)] at h
              exact ⟨(List.forall₂_cons.mp h).2, by omega⟩
          · simp only [hc, Bool.false_eq_true, if_false, reduceCtorEq, false_iff]
            rintro ⟨h, rfl⟩
            rw [Source.slice_cons htoken (by rw [List.length_cons]; omega)] at h
            exact hc (List.forall₂_cons.mp h).1

theorem Literal.recognize_cases (l : Literal) (path : Path) (hp : p ≤ src.size) :
    (∃ q, l.readFrom src l.tokens p = some q ∧
        l.recognize src path p = .success (.atom path.symbol ⟨p, q - p⟩) q) ∨
      l.readFrom src l.tokens p = none ∧
        l.recognize src path p = .failure (.failed path p) p := by
  unfold recognize
  cases h : l.readFrom src l.tokens p with
  | none => exact Or.inr ⟨rfl, by simp [Source.seek_of_le hp]⟩
  | some q =>
      obtain ⟨-, rfl⟩ := (l.readFrom_eq_some_iff _ _ _).mp h
      exact Or.inl ⟨_, rfl, by simp [Segment.ofBounds_of_le (Nat.le_add_right p _)]⟩

/-! ## Patterns -/

/-- A window of so many tokens that the mode may take; `accepted` says whether the
expression matches it. -/
def MatchMode.Admits (mode : MatchMode) (accepted : Bool) (n : Nat) : Prop :=
  match mode with
  | within min max => min ≤ n ∧ n ≤ max ∧ accepted = true
  | growing _ allowEmpty => (1 ≤ n ∧ accepted = true) ∨ (n = 0 ∧ allowEmpty = true)

/-- The window taken is one that the mode may take and that is there. -/
theorem MatchMode.length?_spec {mode : MatchMode} {accepts : Nat → Bool} {available n : Nat}
    (h : mode.length? accepts available = some n) :
    n ≤ available ∧ mode.Admits (accepts n) n := by
  refine ⟨length?_le h, ?_⟩
  cases mode with
  | within min max =>
      have hlongest := length?_within min max available accepts
      rw [h] at hlongest
      obtain ⟨h₁, h₂, h₃⟩ := hlongest.mem
      exact ⟨h₁, by omega, h₃⟩
  | growing tolerance allowEmpty =>
      obtain ⟨grown, hlongest, heq⟩ := length?_growing tolerance allowEmpty accepts available
      rcases orEmpty_eq_some_iff.mp (heq.symm.trans h) with rfl | ⟨-, hempty, rfl⟩
      · obtain ⟨h₁, -, h₃, -⟩ := hlongest.mem
        exact Or.inl ⟨h₁, h₃⟩
      · exact Or.inr ⟨rfl, hempty⟩

/-! ## All terminals -/

/-- Entered at `p`, the rule accepts the tokens up to `q` and covers the segment
with its atom. -/
inductive Terminal.Reads (src : Source) : Terminal → Nat → Segment → Nat → Prop where
  | literal {l : Literal} {p q : Nat} (tokens : l.Matches (src.slice p q))
      (stop : q = p + l.tokens.length) : Reads src (.literal l) p ⟨p, q - p⟩ q
  | charClass {k : CharClass} {p : Nat} {c : Char} (token : src.token? p = some c)
      (admitted : k.admits c = true) : Reads src (.charClass k) p ⟨p, 1⟩ (p + 1)
  | endOfInput {p : Nat} (noToken : src.size ≤ p) : Reads src .endOfInput p ⟨p, 0⟩ p
  | pattern {r : Pattern} {p n : Nat} (available : p + n ≤ src.size)
      (admitted : r.mode.Admits (r.accepts (src.slice p (p + n))) n) :
      Reads src (.pattern r) p ⟨p, n⟩ (p + n)
  | delimited {d : Delimited} {p start stop q : Nat} (opened : src.slice p start = d.start)
      (behind : start = p + d.start.length) (content : d.Content src start stop)
      (enough : start < stop ∨ d.acceptsEmpty = true)
      (closed : src.slice stop q = d.stop.getD [] ∧ q = stop + (d.stop.getD []).length) :
      Reads src (.delimited d) p ⟨start, stop - start⟩ q

/-- An atom over tokens that the rule accepts, or a failure that leaves the cursor
where it was. -/
def Terminal.Answers (src : Source) (t : Terminal) (path : Path) (p : Nat)
    (r : Reply Diagnosis Node) : Prop :=
  (∃ seg q, t.Reads src p seg q ∧ r = .success (.atom path.symbol seg) q) ∨
    ∃ d, r = .failure d p

/-- Content that ends at `stop` is enough and the end delimiter, if there is one, is there. -/
def Delimited.Closes (d : Delimited) (src : Source) (start stop : Nat) : Prop :=
  (start < stop ∨ d.acceptsEmpty = true) ∧
    src.slice stop (stop + (d.stop.getD []).length) = d.stop.getD []

/-- **Delimited content.** Without the start delimiter nothing is committed. Behind it
content is read as far as it goes, and whether it closes there decides. -/
theorem Delimited.recognize_cases (d : Delimited) (path : Path) (hp : p ≤ src.size) :
    (src.slice p (p + d.start.length) ≠ d.start ∧
        d.recognize src path p = .failure (.failed path p) p) ∨
      ∃ stop, src.slice p (p + d.start.length) = d.start ∧
        d.readContent src (p + d.start.length) = .ok stop ∧
        d.Read src (p + d.start.length) stop ∧
        ((d.Closes src (p + d.start.length) stop ∧ d.recognize src path p =
            .success (.atom path.symbol ⟨p + d.start.length, stop - (p + d.start.length)⟩)
              (stop + (d.stop.getD []).length)) ∨
          ¬ d.Closes src (p + d.start.length) stop ∧
            d.recognize src path p = .failure (.partway path p (stop - p)) p) := by
  have fails (e : Diagnosis) (q : Nat) :
      Reply.restoring src p (.failure e q : Reply Diagnosis Node) = .failure e p := by
    simp [Reply.restoring, Source.seek_of_le hp]
  unfold recognize
  cases hopen : src.expect? p d.start with
  | none =>
      refine Or.inl ⟨fun hslice => ?_, fails _ _⟩
      simp [Source.expect?_eq_some_iff.mpr ⟨hslice, rfl⟩] at hopen
  | some start =>
      obtain ⟨hslice, rfl⟩ := Source.expect?_eq_some_iff.mp hopen
      obtain ⟨stop, hread, hcontent⟩ := d.readContent_read src (Source.le_size_of_slice_eq hp hslice)
      have hle := hcontent.start_le_stop
      refine Or.inr ⟨stop, hslice, hread, hcontent, ?_⟩
      simp only [hread, Reply.check_ok, Segment.ofBounds_of_le hle]
      by_cases hempty : (Segment.mk (p + d.start.length) (stop - (p + d.start.length))).isEmpty &&
          !d.acceptsEmpty
      · simp only [Segment.isEmpty, Bool.and_eq_true, beq_iff_eq, Bool.not_eq_true'] at hempty
        obtain rfl : stop = p + d.start.length := by omega
        refine Or.inr ⟨fun hcloses => ?_, ?_⟩
        · simp [Closes, hempty.2] at hcloses
        · simp only [Segment.isEmpty, hempty.1, hempty.2, beq_self_eq_true, Bool.not_false,
            Bool.and_self, if_true, distance_of_le (Nat.le_add_right p _), Reply.check_ok]
          exact fails _ _
      · simp only [hempty, Bool.false_eq_true, if_false]
        have henough : p + d.start.length < stop ∨ d.acceptsEmpty = true := by
          simp only [Segment.isEmpty, Bool.and_eq_true, beq_iff_eq, Bool.not_eq_true', not_and,
            Bool.not_eq_false] at hempty
          by_cases h : stop - (p + d.start.length) = 0
          · exact Or.inr (hempty h)
          · exact Or.inl (by omega)
        cases hend : d.stop with
        | none => exact Or.inl ⟨⟨henough, by simp [hend]⟩, by simp [Reply.restoring]⟩
        | some e =>
            cases hclose : src.expect? stop e with
            | some q =>
                obtain ⟨hslice', rfl⟩ := Source.expect?_eq_some_iff.mp hclose
                refine Or.inl ⟨⟨henough, by simpa [hend] using hslice'⟩, ?_⟩
                simp [hclose, Reply.restoring]
            | none =>
                refine Or.inr ⟨fun hcloses => ?_, ?_⟩
                · have hslice' : src.slice stop (stop + e.length) = e := by
                    simpa [hend] using hcloses.2
                  simp [Source.expect?_eq_some_iff.mpr ⟨hslice', rfl⟩] at hclose
                · simp only [hclose, distance_of_le (show p ≤ stop by omega), Reply.check_ok]
                  exact fails _ _

theorem Delimited.recognize_answers (d : Delimited) (path : Path) (hp : p ≤ src.size) :
    (Terminal.delimited d).Answers src path p (d.recognize src path p) := by
  rcases d.recognize_cases path hp with
    ⟨-, hr⟩ | ⟨stop, hopened, -, hread, ⟨⟨henough, hclosed⟩, hr⟩ | ⟨-, hr⟩⟩
  · exact Or.inr ⟨_, hr⟩
  · exact Or.inl ⟨_, _, .delimited hopened rfl hread.toContent henough ⟨hclosed, rfl⟩, hr⟩
  · exact Or.inr ⟨_, hr⟩

/-- **Terminals.** Recognition answers with an atom over tokens that the rule
accepts, or fails. -/
theorem Terminal.recognize_answers (t : Terminal) (path : Path) (hp : p ≤ src.size) :
    t.Answers src path p (t.recognize src path p) := by
  cases t with
  | literal l =>
      rcases l.recognize_cases path hp with ⟨q, h, hr⟩ | ⟨-, hr⟩
      · obtain ⟨htokens, hq⟩ := (l.readFrom_eq_some_iff _ _ _).mp h
        exact Or.inl ⟨_, q, .literal htokens hq, hr⟩
      · exact Or.inr ⟨_, hr⟩
  | charClass k =>
      simp only [recognize, CharClass.recognize]
      cases htoken : src.token? p with
      | none => exact Or.inr ⟨_, rfl⟩
      | some c =>
          by_cases hc : k.admits c
          · refine Or.inl ⟨_, _, .charClass htoken hc, ?_⟩
            simp [hc, Segment.ofBounds_of_le (Nat.le_succ p)]
          · exact Or.inr ⟨.failed path p, by simp [hc]⟩
  | delimited d => exact d.recognize_answers path hp
  | endOfInput =>
      simp only [recognize, recognizeEnd]
      by_cases hend : src.size ≤ p
      · exact Or.inl ⟨_, p, .endOfInput hend, by rw [if_pos hend]; rfl⟩
      · exact Or.inr ⟨_, by rw [if_neg hend]⟩
  | pattern r =>
      simp only [recognize, Pattern.recognize, Pattern.recognizeWith, distance_of_le hp,
        Reply.check_ok]
      cases hlength : r.mode.length? (fun n => r.accepts (src.window ⟨p, n⟩)) (src.size - p) with
      | none => exact Or.inr ⟨_, rfl⟩
      | some n =>
          obtain ⟨havailable, hadmits⟩ := MatchMode.length?_spec hlength
          have hn : p + n ≤ src.size := by omega
          refine Or.inl ⟨_, _, .pattern hn hadmits, ?_⟩
          simp [Source.advance?_eq_some hn]

theorem Terminal.recognize_success {t : Terminal} {path : Path} {n : Node} (hp : p ≤ src.size)
    (h : t.recognize src path p = .success n q) :
    ∃ seg, t.Reads src p seg q ∧ n = .atom path.symbol seg := by
  rcases t.recognize_answers path hp with ⟨seg, m, hreads, hr⟩ | ⟨d, hr⟩ <;> rw [hr] at h
  · rw [Reply.success.injEq] at h
    obtain ⟨rfl, rfl⟩ := h
    exact ⟨seg, hreads, rfl⟩
  · cases h

theorem Terminal.Reads.bounds {t : Terminal} {seg : Segment} (h : t.Reads src p seg q)
    (hp : p ≤ src.size) :
    p ≤ q ∧ q ≤ src.size ∧ p ≤ seg.offset ∧ seg.stop ≤ q := by
  cases h with
  | @literal l p q tokens stop =>
      have hlength := tokens.length_eq
      rw [Source.length_slice] at hlength
      simp only [Segment.stop]
      omega
  | charClass token _ =>
      have hlt := Source.lt_size_of_token? token
      simp only [Segment.stop]
      omega
  | endOfInput _ => exact ⟨Nat.le_refl _, hp, Nat.le_refl _, Nat.le_refl _⟩
  | pattern available _ => exact ⟨by omega, available, Nat.le_refl _, Nat.le_refl _⟩
  | @delimited d p start stop q opened behind content _ closed =>
      obtain ⟨hclosed, rfl⟩ := closed
      have h₁ := content.start_le_stop
      have h₂ := Source.le_size_of_slice_eq content.stop_le_size hclosed
      simp only [Segment.stop]
      omega

/-- A terminal that accepts no tokens is one that may. -/
theorem Terminal.Reads.isNullable {t : Terminal} {seg : Segment} (h : t.Reads src p seg q)
    (hq : q = p) : t.isNullable = true := by
  cases h with
  | @literal l p q tokens stop =>
      have := List.length_pos_iff.mpr l.tokens_ne_nil
      omega
  | charClass _ _ => omega
  | endOfInput _ => rfl
  | @pattern r p n _ admitted =>
      obtain rfl : n = 0 := by omega
      simp only [Nat.add_zero, Source.slice_self] at admitted
      simp only [Terminal.isNullable, Pattern.isNullable, MatchMode.isNullable]
      cases hmode : r.mode with
      | within min max =>
          simp only [hmode, MatchMode.Admits] at admitted
          simp [Nat.le_zero.mp admitted.1, admitted.2.2]
      | growing tolerance allowEmpty =>
          simp only [hmode, MatchMode.Admits] at admitted
          rcases admitted with ⟨h, -⟩ | ⟨-, h⟩
          · omega
          · exact h
  | @delimited d p start stop q _ behind content _ closed =>
      have h₁ := List.length_pos_iff.mpr d.start_ne_nil
      have h₂ := content.start_le_stop
      omega

theorem Terminal.recognize_orderly (t : Terminal) :
    NodeRecognizer.Orderly src (t.recognize src) := by
  intro path p hp
  rcases t.recognize_answers path hp with ⟨seg, q, hreads, h⟩ | ⟨d, h⟩ <;> rw [h]
  · obtain ⟨h₁, h₂, h₃⟩ := hreads.bounds hp
    exact .success h₁ h₂ h₃
  · exact .failure d

end ConcreteSyntax
