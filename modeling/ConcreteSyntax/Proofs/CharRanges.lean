import ConcreteSyntax.CharRange
import Mathlib.Data.List.Sort

/-!
# Sets of characters

Ranges are put in order, those that overlap or touch are made one, and a character
is looked up by bisection. None of this changes which characters there are: a set
made of some ranges holds what one of them holds. Merging keeps the ranges apart from
each other, and it is for ranges that stand apart that bisection finds the only one
which can hold a character.
-/

namespace ConcreteSyntax

namespace CharRange

variable {r s : CharRange} {c : Char} {n : Nat}

theorem char_le_iff {c d : Char} : c ≤ d ↔ c.toNat ≤ d.toNat :=
  Char.le_def.trans UInt32.le_iff_toNat_le

theorem char_lt_iff {c d : Char} : c < d ↔ c.toNat < d.toNat :=
  Char.lt_def.trans UInt32.lt_iff_toNat_lt

/-- The code point with this number lies between the ends of the range. No character need
have it. -/
def Covers (r : CharRange) (n : Nat) : Prop := r.low.toNat ≤ n ∧ n ≤ r.high.toNat

theorem contains_iff : r.contains c = true ↔ r.Covers c.toNat := by
  simp only [contains, Covers, Bool.and_eq_true, decide_eq_true_eq, char_le_iff]

theorem low_le_high_toNat (r : CharRange) : r.low.toNat ≤ r.high.toNat :=
  char_le_iff.mp r.low_le_high

/-! ## Order -/

theorem precedes_iff : r.precedes s = true ↔
    r.low.toNat < s.low.toNat ∨ r.low.toNat = s.low.toNat ∧ r.high.toNat ≤ s.high.toNat := by
  simp only [precedes, Bool.or_eq_true, decide_eq_true_eq, Bool.and_eq_true, beq_iff_eq,
    char_le_iff, char_lt_iff, Char.toNat_inj]

/-- Ordered ranges, as they are merged. -/
theorem pairwise_low_mergeSort (ranges : List CharRange) :
    (ranges.mergeSort precedes).Pairwise fun r s => r.low.toNat ≤ s.low.toNat := by
  have htrans : ∀ r s t : CharRange, r.precedes s = true → s.precedes t = true →
      r.precedes t = true := by
    intro r s t hrs hst
    rw [precedes_iff] at hrs hst ⊢
    omega
  have htotal : ∀ r s : CharRange, (r.precedes s || s.precedes r) = true := by
    intro r s
    rw [Bool.or_eq_true, precedes_iff, precedes_iff]
    omega
  refine (List.pairwise_mergeSort htrans htotal ranges).imp fun h => ?_
  rw [precedes_iff] at h
  omega

/-! ## Merging -/

/-- There is some number between the one range and the other. -/
def Apart (r s : CharRange) : Prop := r.high.toNat + 1 < s.low.toNat

@[simp] theorem reaching_low (r : CharRange) (high : Char) : (r.reaching high).low = r.low := by
  unfold reaching
  split <;> rfl

theorem reaching_high (r : CharRange) (high : Char) :
    (r.reaching high).high.toNat = max r.high.toNat high.toNat := by
  unfold reaching
  split <;> rename_i h <;> rw [char_le_iff] at h
  · exact (Nat.max_eq_right h).symm
  · exact (Nat.max_eq_left (Nat.le_of_not_le h)).symm

/-- A range made to reach over one that overlaps or touches it covers both. -/
theorem covers_reaching (hlow : r.low.toNat ≤ s.low.toNat)
    (htouch : s.low.toNat ≤ r.high.toNat + 1) :
    (r.reaching s.high).Covers n ↔ r.Covers n ∨ s.Covers n := by
  have := s.low_le_high_toNat
  simp only [Covers, reaching_low, reaching_high]
  omega

/-- Ranges stay ordered when the first is made to reach over the second. -/
theorem ordered_reaching {rest : List CharRange} {high : Char}
    (h : (r :: s :: rest).Pairwise fun r s => r.low.toNat ≤ s.low.toNat) :
    (r.reaching high :: rest).Pairwise fun r s => r.low.toNat ≤ s.low.toNat := by
  obtain ⟨hfirst, hrest⟩ := List.pairwise_cons.mp h
  refine List.pairwise_cons.mpr ⟨fun t ht => ?_, hrest.tail⟩
  rw [reaching_low]
  exact hfirst t (List.mem_cons_of_mem _ ht)

/-- **Merging.** Ordered ranges that are merged stand apart. -/
theorem merge_apart : ∀ (r : CharRange) (rest : List CharRange),
    (r :: rest).Pairwise (fun r s => r.low.toNat ≤ s.low.toNat) →
    (merge r rest).Pairwise Apart ∧ ∀ t ∈ merge r rest, r.low.toNat ≤ t.low.toNat
  | r, [], _ => ⟨List.pairwise_singleton _ _, by simp [merge]⟩
  | r, s :: rest, h => by
      obtain ⟨hfirst, hrest⟩ := List.pairwise_cons.mp h
      rw [merge]
      by_cases htouch : s.low.toNat ≤ r.high.toNat + 1
      · rw [if_pos htouch]
        obtain ⟨hapart, hle⟩ := merge_apart (r.reaching s.high) rest (ordered_reaching h)
        exact ⟨hapart, fun t ht => by simpa using hle t ht⟩
      · rw [if_neg htouch]
        obtain ⟨hapart, hle⟩ := merge_apart s rest hrest
        refine ⟨List.pairwise_cons.mpr ⟨fun t ht => ?_, hapart⟩, ?_⟩
        · exact Nat.lt_of_lt_of_le (Nat.lt_of_not_le htouch) (hle t ht)
        · have hlow := hfirst s List.mem_cons_self
          exact List.forall_mem_cons.mpr ⟨Nat.le_refl _, fun t ht => hlow.trans (hle t ht)⟩

/-- Ordered ranges cover the same code points when they are merged. -/
theorem covers_merge : ∀ (r : CharRange) (rest : List CharRange),
    (r :: rest).Pairwise (fun r s => r.low.toNat ≤ s.low.toNat) →
    ((∃ t ∈ merge r rest, t.Covers n) ↔ ∃ t ∈ r :: rest, t.Covers n)
  | r, [], _ => Iff.rfl
  | r, s :: rest, h => by
      obtain ⟨hfirst, hrest⟩ := List.pairwise_cons.mp h
      have hlow := hfirst s List.mem_cons_self
      rw [merge]
      by_cases htouch : s.low.toNat ≤ r.high.toNat + 1
      · rw [if_pos htouch, covers_merge (r.reaching s.high) rest (ordered_reaching h)]
        simp only [List.exists_mem_cons_iff, covers_reaching hlow htouch, or_assoc]
      · rw [if_neg htouch, List.exists_mem_cons_iff, covers_merge s rest hrest,
          List.exists_mem_cons_iff (l := s :: rest)]

theorem normalize_apart (ranges : List CharRange) : (normalize ranges).Pairwise Apart := by
  have hsorted := pairwise_low_mergeSort ranges
  unfold normalize
  cases h : ranges.mergeSort precedes with
  | nil => exact .nil
  | cons r rest => exact (merge_apart r rest (h ▸ hsorted)).1

theorem covers_normalize {ranges : List CharRange} :
    (∃ t ∈ normalize ranges, t.Covers n) ↔ ∃ t ∈ ranges, t.Covers n := by
  have hsorted := pairwise_low_mergeSort ranges
  have hmem : (∃ t ∈ ranges.mergeSort precedes, t.Covers n) ↔ ∃ t ∈ ranges, t.Covers n := by
    simp only [List.mem_mergeSort]
  rw [← hmem]
  unfold normalize
  cases h : ranges.mergeSort precedes with
  | nil => exact Iff.rfl
  | cons r rest => exact covers_merge r rest (h ▸ hsorted)

theorem contains_normalize {ranges : List CharRange} :
    (∃ t ∈ normalize ranges, t.contains c = true) ↔ ∃ t ∈ ranges, t.contains c = true := by
  simp only [contains_iff, covers_normalize]

theorem covers_low (r : CharRange) : r.Covers r.low.toNat :=
  ⟨Nat.le_refl _, r.low_le_high_toNat⟩

/-- Each range covers something, so no ranges are left only of none. -/
theorem normalize_eq_nil_iff {ranges : List CharRange} : normalize ranges = [] ↔ ranges = [] := by
  constructor
  · intro hnil
    refine List.eq_nil_iff_forall_not_mem.mpr fun r hr => ?_
    obtain ⟨t, ht, -⟩ := covers_normalize.mpr ⟨r, hr, r.covers_low⟩
    rw [hnil] at ht
    exact List.not_mem_nil ht
  · rintro rfl
    simp [normalize]

end CharRange

/-! ## Bisection -/

/-- **Bisection.** A property that holds up to some index holds before the index that is
found and no longer there. -/
theorem bisect_spec {p : Nat → Bool} (hp : ∀ i j, i ≤ j → p j = true → p i = true) :
    ∀ (fuel low high : Nat), high - low ≤ fuel → low ≤ high → (∀ i < low, p i = true) →
      p high = false →
      (∀ i < bisect p fuel low high, p i = true) ∧ p (bisect p fuel low high) = false
  | 0, low, high, hfuel, hle, hlow, hhigh => by
      obtain rfl : low = high := by omega
      exact ⟨hlow, hhigh⟩
  | fuel + 1, low, high, hfuel, hle, hlow, hhigh => by
      rw [bisect]
      by_cases hlt : low < high
      · rw [if_pos hlt]
        cases hmiddle : p ((low + high) / 2) with
        | true =>
            simp only [hmiddle, if_true]
            exact bisect_spec hp fuel _ high (by omega) (by omega)
              (fun i hi => hp i _ (Nat.le_of_lt_succ hi) hmiddle) hhigh
        | false =>
            simp only [hmiddle, Bool.false_eq_true, if_false]
            exact bisect_spec hp fuel low _ (by omega) (by omega) hlow hmiddle
      · rw [if_neg hlt]
        obtain rfl : low = high := by omega
        exact ⟨hlow, hhigh⟩

namespace RangeSet

open CharRange

variable {s : RangeSet} {c : Char}

theorem endsBefore_eq_true_iff {i : Nat} :
    s.endsBefore c i = true ↔ ∃ r, s.toList[i]? = some r ∧ r.high.toNat < c.toNat := by
  rw [endsBefore, toList, Array.getElem?_toList]
  cases s.ranges[i]? with
  | none => simp
  | some r => simp [char_lt_iff]

/-- Of ranges that stand apart, an earlier one ends first. -/
theorem endsBefore_antitone (hs : s.toList.Pairwise Apart) (i j : Nat) (hij : i ≤ j)
    (h : s.endsBefore c j = true) : s.endsBefore c i = true := by
  obtain ⟨t, ht, hend⟩ := endsBefore_eq_true_iff.mp h
  obtain ⟨hj, rfl⟩ := List.getElem?_eq_some_iff.mp ht
  rcases Nat.lt_or_eq_of_le hij with hlt | rfl
  · have hi : i < s.toList.length := Nat.lt_trans hlt hj
    have hapart := List.pairwise_iff_getElem.mp hs i j hi hj hlt
    have hle := s.toList[j].low_le_high_toNat
    refine endsBefore_eq_true_iff.mpr ⟨_, List.getElem?_eq_getElem hi, ?_⟩
    simp only [Apart] at hapart
    omega
  · exact h

/-- **Lookup.** In ranges that stand apart, bisection finds the one that holds the
character, if there is one. -/
theorem contains_iff (hs : s.toList.Pairwise Apart) :
    s.contains c = true ↔ ∃ r ∈ s.toList, r.contains c = true := by
  have hend : s.endsBefore c s.ranges.size = false := by simp [endsBefore]
  obtain ⟨hbefore, hfirst⟩ := bisect_spec (endsBefore_antitone (c := c) hs) s.ranges.size 0 _
    (Nat.le_refl _) (Nat.zero_le _) (by simp) hend
  rw [contains]
  generalize bisect (s.endsBefore c) s.ranges.size 0 s.ranges.size = k at hbefore hfirst ⊢
  rw [← Array.getElem?_toList, ← toList]
  constructor
  · intro h
    cases hk : s.toList[k]? with
    | none => simp [hk] at h
    | some r =>
        simp only [hk, decide_eq_true_eq, char_le_iff] at h
        have hhigh : ¬ r.high.toNat < c.toNat := fun hlt => by
          simp [endsBefore_eq_true_iff.mpr ⟨r, hk, hlt⟩] at hfirst
        exact ⟨r, List.mem_of_getElem? hk, CharRange.contains_iff.mpr ⟨h, by omega⟩⟩
  · rintro ⟨r, hr, hc⟩
    obtain ⟨i, hi⟩ := List.mem_iff_getElem?.mp hr
    rw [CharRange.contains_iff, Covers] at hc
    -- the range does not end before the character, and all that come before it do
    have hki : k ≤ i := by
      by_contra hlt
      obtain ⟨t, ht, hbad⟩ := endsBefore_eq_true_iff.mp (hbefore i (by omega))
      obtain rfl := Option.some.inj (hi.symm.trans ht)
      omega
    have hik : i ≤ k := by
      by_contra hlt
      obtain ⟨hlength, rfl⟩ := List.getElem?_eq_some_iff.mp hi
      have hk : k < s.toList.length := by omega
      have hapart := List.pairwise_iff_getElem.mp hs k i hk hlength (by omega)
      have hends : s.toList[k].high.toNat < c.toNat := by
        simp only [Apart] at hapart
        omega
      simp [endsBefore_eq_true_iff.mpr ⟨_, List.getElem?_eq_getElem hk, hends⟩] at hfirst
    obtain rfl := Nat.le_antisymm hki hik
    simp only [hi, decide_eq_true_eq, char_le_iff]
    exact hc.1

theorem toList_ofList (ranges : List CharRange) : (ofList ranges).toList = normalize ranges := by
  simp only [ofList, toList]

theorem contains_ofList {ranges : List CharRange} :
    (ofList ranges).contains c = true ↔ ∃ r ∈ ranges, r.contains c = true := by
  rw [contains_iff (toList_ofList ranges ▸ normalize_apart ranges), toList_ofList]
  exact contains_normalize

theorem isEmpty_ofList {ranges : List CharRange} :
    (ofList ranges).isEmpty = true ↔ ranges = [] := by
  rw [← normalize_eq_nil_iff, isEmpty, ofList]
  simp

/-- A character is admitted if it lies in one of the included ranges, should there be
any, and in none of the excluded ones. -/
theorem admits_ofList {included excluded : List CharRange} :
    admits (ofList included) (ofList excluded) c = true ↔
      (included = [] ∨ ∃ r ∈ included, r.contains c = true) ∧
        ∀ r ∈ excluded, r.contains c = false := by
  rw [admits, Bool.and_eq_true, Bool.or_eq_true, isEmpty_ofList, contains_ofList,
    Bool.not_eq_true', ← Bool.not_eq_true, contains_ofList]
  simp

end RangeSet

end ConcreteSyntax
