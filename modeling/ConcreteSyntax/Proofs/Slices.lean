import ConcreteSyntax.Source
import Mathlib.Data.List.TakeDrop

/-!
# Slices of an input

The tokens between two positions: how many there are, how slices that meet are
put together, and what the requests for tokens at a position say about them.
-/

namespace ConcreteSyntax.Source

variable {src : Source} {a b c p q : Nat}

theorem length_slice (src : Source) (a b : Nat) :
    (src.slice a b).length = min b src.size - a := by
  rw [slice_eq, List.length_drop, List.length_take, Array.length_toList, size]

theorem length_slice_of_le (h : b ≤ src.size) : (src.slice a b).length = b - a := by
  rw [length_slice, Nat.min_eq_left h]

@[simp] theorem slice_self (src : Source) (a : Nat) : src.slice a a = [] :=
  List.eq_nil_of_length_eq_zero (by rw [length_slice]; omega)

/-- Slices that meet. -/
theorem slice_append (hab : a ≤ b) (hbc : b ≤ c) :
    src.slice a c = src.slice a b ++ src.slice b c := by
  have hmeet : src.tokens.toList.take b ++ (src.tokens.toList.take c).drop b =
      src.tokens.toList.take c := by
    conv_rhs => rw [← List.take_append_drop b (src.tokens.toList.take c)]
    rw [List.take_take, Nat.min_eq_left hbc]
  rw [slice_eq, slice_eq, slice_eq, ← hmeet, List.drop_append]
  congr 1
  by_cases hlen : a ≤ (src.tokens.toList.take b).length
  · rw [Nat.sub_eq_zero_of_le hlen, List.drop_zero, hmeet]
  · -- the input ends before `a`, and nothing comes after it
    have hend : (src.tokens.toList.take c).drop b = [] := by
      rw [List.drop_eq_nil_iff, List.length_take]
      rw [List.length_take] at hlen
      omega
    rw [hmeet, hend, List.drop_nil]

theorem mem_slice_append (hab : a ≤ b) (hbc : b ≤ c) {x : Char} :
    x ∈ src.slice a c ↔ x ∈ src.slice a b ∨ x ∈ src.slice b c := by
  rw [slice_append hab hbc, List.mem_append]

theorem lt_size_of_token? {x : Char} (h : src.token? p = some x) : p < src.size := by
  rw [token?] at h
  exact (Array.getElem?_eq_some_iff.mp h).1

theorem token?_eq_none_iff : src.token? p = none ↔ src.size ≤ p := by
  rw [token?, Array.getElem?_eq_none_iff, size]

theorem slice_succ {x : Char} (h : src.token? p = some x) : src.slice p (p + 1) = [x] := by
  rw [slice_eq]
  apply List.ext_getElem?
  intro i
  rw [List.getElem?_drop, List.getElem?_take, Array.getElem?_toList]
  cases i with
  | zero =>
      rw [token?] at h
      simp [h]
  | succ i =>
      rw [if_neg (by omega)]
      simp

theorem slice_cons {x : Char} (h : src.token? p = some x) (hq : p + 1 ≤ q) :
    src.slice p q = x :: src.slice (p + 1) q := by
  rw [slice_append (Nat.le_succ p) hq, slice_succ h, List.singleton_append]

theorem slice_snoc {x : Char} (h : src.token? q = some x) (hp : p ≤ q) :
    src.slice p (q + 1) = src.slice p q ++ [x] := by
  rw [slice_append hp (Nat.le_succ q), slice_succ h]

theorem remaining_eq_nil_iff : src.remaining p = [] ↔ src.size ≤ p := by
  rw [remaining, ← List.length_eq_zero_iff, length_slice]
  omega

/-- The first of the tokens that remain. -/
theorem remaining_cons {x : Char} {rest : List Char} (h : src.remaining p = x :: rest) :
    src.token? p = some x ∧ rest = src.remaining (p + 1) := by
  have hp : p < src.size := by
    rw [← Nat.not_le, ← remaining_eq_nil_iff, h]
    simp
  obtain ⟨y, hy⟩ : ∃ y, src.token? p = some y := by
    rw [← Option.ne_none_iff_exists', ne_eq, token?_eq_none_iff]
    omega
  rw [remaining, slice_cons hy hp, List.cons.injEq] at h
  exact ⟨h.1 ▸ hy, h.2.symm⟩

/-- What comes next ends within the input. -/
theorem le_size_of_slice_eq {xs : List Char} (hp : p ≤ src.size)
    (h : src.slice p (p + xs.length) = xs) : p + xs.length ≤ src.size := by
  have hlen := congrArg List.length h
  rw [length_slice] at hlen
  omega

/-- What a slice ends with is a slice that ends where it does. -/
theorem slice_eq_of_suffix {xs : List Char} (hb : b ≤ src.size) (h : xs <:+ src.slice a b) :
    src.slice (b - xs.length) b = xs := by
  rcases Nat.le_total a b with hab | hba
  · have hends := (endsWith_iff hab hb xs).mpr h
    simp only [endsWith, Bool.and_eq_true, beq_iff_eq] at hends
    exact hends.2
  · have hnil : src.slice a b = [] :=
      List.eq_nil_of_length_eq_zero (by rw [length_slice]; omega)
    rw [hnil, List.suffix_nil] at h
    simp [h]

theorem expect?_eq_some_iff {xs : List Char} :
    src.expect? p xs = some q ↔ src.slice p q = xs ∧ q = p + xs.length := by
  unfold expect? comesNext
  by_cases h : src.slice p (p + xs.length) = xs
  · simp only [h, beq_self_eq_true, if_true, Option.some.injEq]
    constructor
    · rintro rfl
      exact ⟨h, rfl⟩
    · rintro ⟨-, rfl⟩
      rfl
  · simp only [beq_iff_eq, h, if_false, reduceCtorEq, false_iff]
    rintro ⟨hs, rfl⟩
    exact h hs

theorem advance?_eq_some {n : Nat} (h : p + n ≤ src.size) : src.advance? p n = some (p + n) := by
  rw [advance?, if_pos (by omega)]

end ConcreteSyntax.Source
