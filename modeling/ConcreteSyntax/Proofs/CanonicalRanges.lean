import ConcreteSyntax.Proofs.CharRanges
import ConcreteSyntax.Terminal.CharClass

/-!
# Normal forms of ranges

Ranges that stand apart are determined by the code points they cover: the first begins
at the least of these and ends before the first gap. Normalizing changes nothing of what
is covered and leaves ranges that stand apart, so it has one result for all lists that
cover the same code points. A class of characters, which looks characters up in normal
forms, admits what a scan of the lists it was made of admits.
-/

namespace ConcreteSyntax

namespace CharRange

variable {r s : CharRange} {rest xs ys : List CharRange} {n : Nat}

/-! ## The first of ranges that stand apart -/

theorem first_low_le (h : (r :: rest).Pairwise Apart) (hn : ∃ t ∈ r :: rest, t.Covers n) :
    r.low.toNat ≤ n := by
  obtain ⟨t, ht, hlow, -⟩ := hn
  rcases List.mem_cons.mp ht with rfl | ht
  · exact hlow
  · have hapart := List.rel_of_pairwise_cons h ht
    have hr := r.low_le_high_toNat
    simp only [Apart] at hapart
    omega

/-- Behind the first range is a gap, and whatever the others cover lies behind it. -/
theorem covers_rest_iff (h : (r :: rest).Pairwise Apart) :
    (∃ t ∈ rest, t.Covers n) ↔ (∃ t ∈ r :: rest, t.Covers n) ∧ r.high.toNat + 1 < n := by
  constructor
  · rintro ⟨t, ht, hcovers⟩
    have hapart := List.rel_of_pairwise_cons h ht
    exact ⟨⟨t, List.mem_cons_of_mem _ ht, hcovers⟩, Nat.lt_of_lt_of_le hapart hcovers.1⟩
  · rintro ⟨⟨t, ht, hcovers⟩, hbehind⟩
    rcases List.mem_cons.mp ht with rfl | ht
    · have hhigh := hcovers.2
      omega
    · exact ⟨t, ht, hcovers⟩

/-- The first range reaches as far as one that begins where it does and is covered. -/
theorem high_le_first_high (h : (r :: rest).Pairwise Apart) (hlow : s.low = r.low)
    (hs : ∀ n, s.Covers n → ∃ t ∈ r :: rest, t.Covers n) : s.high.toNat ≤ r.high.toNat := by
  by_contra hlonger
  have hr := r.low_le_high_toNat
  have hgap : s.Covers (r.high.toNat + 1) := ⟨by rw [hlow]; omega, by omega⟩
  obtain ⟨t, ht, hcovers⟩ := hs _ hgap
  rcases List.mem_cons.mp ht with rfl | ht
  · exact Nat.not_succ_le_self _ hcovers.2
  · exact Nat.lt_irrefl _ ((covers_rest_iff h).mp ⟨t, ht, hcovers⟩).2

/-- **Normal forms.** Ranges that stand apart and cover the same code points are the same
ranges. -/
theorem eq_of_covers : ∀ {xs ys : List CharRange}, xs.Pairwise Apart → ys.Pairwise Apart →
    (∀ n, (∃ r ∈ xs, r.Covers n) ↔ ∃ r ∈ ys, r.Covers n) → xs = ys
  | [], [], _, _, _ => rfl
  | [], s :: ys, _, _, h => by
      obtain ⟨t, ht, -⟩ := (h s.low.toNat).mpr ⟨s, List.mem_cons_self, s.covers_low⟩
      exact absurd ht List.not_mem_nil
  | r :: xs, [], _, _, h => by
      obtain ⟨t, ht, -⟩ := (h r.low.toNat).mp ⟨r, List.mem_cons_self, r.covers_low⟩
      exact absurd ht List.not_mem_nil
  | r :: xs, s :: ys, hx, hy, h => by
      have hlow : r.low = s.low := by
        refine Char.toNat_inj.mp (Nat.le_antisymm ?_ ?_)
        · exact first_low_le hx ((h _).mpr ⟨s, List.mem_cons_self, s.covers_low⟩)
        · exact first_low_le hy ((h _).mp ⟨r, List.mem_cons_self, r.covers_low⟩)
      have hhigh : r.high = s.high := by
        refine Char.toNat_inj.mp (Nat.le_antisymm ?_ ?_)
        · exact high_le_first_high hy hlow fun n hn => (h n).mp ⟨r, List.mem_cons_self, hn⟩
        · exact high_le_first_high hx hlow.symm fun n hn => (h n).mpr ⟨s, List.mem_cons_self, hn⟩
      obtain rfl : r = s := by
        obtain ⟨low, high, _⟩ := r
        obtain rfl : low = s.low := hlow
        obtain rfl : high = s.high := hhigh
        rfl
      -- what lies behind the first range is covered by the others
      have hrest (n : Nat) : (∃ t ∈ xs, t.Covers n) ↔ ∃ t ∈ ys, t.Covers n := by
        rw [covers_rest_iff hx, covers_rest_iff hy, h n]
      rw [eq_of_covers hx.of_cons hy.of_cons hrest]

/-! ## Normalizing -/

theorem normalize_eq_iff :
    normalize xs = normalize ys ↔ ∀ n, (∃ r ∈ xs, r.Covers n) ↔ ∃ r ∈ ys, r.Covers n := by
  constructor
  · intro h n
    rw [← covers_normalize, h, covers_normalize]
  · intro h
    refine eq_of_covers (normalize_apart xs) (normalize_apart ys) fun n => ?_
    rw [covers_normalize, covers_normalize, h n]

/-- It is a matter of which ranges there are, and not of how often and in what order. -/
theorem normalize_congr (h : ∀ r, r ∈ xs ↔ r ∈ ys) : normalize xs = normalize ys := by
  rw [normalize_eq_iff]
  simp only [h, implies_true]

theorem normalize_normalize (ranges : List CharRange) :
    normalize (normalize ranges) = normalize ranges :=
  normalize_eq_iff.mpr fun _ => covers_normalize

end CharRange

/-! ## Classes of characters -/

/-- A class looks up what a scan of its ranges would find. -/
theorem CharClass.admits_ofRanges (included excluded : List CharRange) (c : Char) :
    (ofRanges included excluded).admits c =
      ((included.isEmpty || included.any fun r => r.contains c) &&
        !excluded.any fun r => r.contains c) := by
  rw [Bool.eq_iff_iff, admits, ofRanges, RangeSet.admits_ofList]
  simp

/-- **Character ranges.** A class admits just the characters that lie in one of the ranges
to be included, if there are any, and in none of those to be excluded, as a scan of both
lists tells. Normalized ranges ascend with a code point between each and the next, cover
the code points that the ranges given cover, are the same for all lists that cover these,
and so for all with the same members, and are their own normal form. -/
theorem ranges_canonical (included excluded : List CharRange) :
    (∀ c, (CharClass.ofRanges included excluded).admits c =
        ((included.isEmpty || included.any fun r => r.contains c) &&
          !excluded.any fun r => r.contains c)) ∧
      ∀ ranges : List CharRange,
        (CharRange.normalize ranges).Pairwise
            (fun r s => ∃ n, r.high.toNat < n ∧ n < s.low.toNat) ∧
          (∀ n, (∃ r ∈ CharRange.normalize ranges, r.Covers n) ↔ ∃ r ∈ ranges, r.Covers n) ∧
          (∀ ranges', CharRange.normalize ranges' = CharRange.normalize ranges ↔
            ∀ n, (∃ r ∈ ranges', r.Covers n) ↔ ∃ r ∈ ranges, r.Covers n) ∧
          (∀ ranges' : List CharRange, (∀ r, r ∈ ranges' ↔ r ∈ ranges) →
            CharRange.normalize ranges' = CharRange.normalize ranges) ∧
          CharRange.normalize (CharRange.normalize ranges) = CharRange.normalize ranges := by
  refine ⟨CharClass.admits_ofRanges included excluded, fun ranges => ⟨?_, ?_, ?_, ?_, ?_⟩⟩
  · refine (CharRange.normalize_apart ranges).imp fun {r s} hapart => ?_
    exact ⟨r.high.toNat + 1, Nat.lt_succ_self _, hapart⟩
  · exact fun n => CharRange.covers_normalize
  · exact fun ranges' => CharRange.normalize_eq_iff
  · exact fun ranges' => CharRange.normalize_congr
  · exact CharRange.normalize_normalize ranges

/-- The letters `a` to `f`, a range among them, and the two that follow. -/
def letterRanges : List CharRange :=
  [⟨'a', 'f', by decide⟩, ⟨'b', 'c', by decide⟩, ⟨'g', 'h', by decide⟩]

/-- Said twice and in another order these ranges are the same, and without `b` and `c` the
class of them still admits `d`. -/
theorem ranges_canonical_letters :
    (∀ r, r ∈ letterRanges.reverse ++ letterRanges ↔ r ∈ letterRanges) ∧
      CharRange.normalize (letterRanges.reverse ++ letterRanges) =
        CharRange.normalize letterRanges ∧
      (CharClass.ofRanges letterRanges [⟨'b', 'c', by decide⟩]).admits 'd' = true := by
  have hmem : ∀ r, r ∈ letterRanges.reverse ++ letterRanges ↔ r ∈ letterRanges := by simp
  obtain ⟨hadmits, hranges⟩ := ranges_canonical letterRanges [⟨'b', 'c', by decide⟩]
  obtain ⟨-, -, -, hcongr, -⟩ := hranges letterRanges
  exact ⟨hmem, hcongr _ hmem, (hadmits 'd').trans (by decide)⟩

end ConcreteSyntax
