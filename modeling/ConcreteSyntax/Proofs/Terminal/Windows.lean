import ConcreteSyntax.Terminal.Pattern
import Mathlib.Order.Bounds.Basic

/-!
# Windows of patterns

Which window a pattern takes is said without a search: within bounds it is the longest
that matches, and a window that grows gets to every length that matches unless more
lengths in a row than are tolerated, all of them shorter, do not. The search keeps count
of the last lengths refused, which is all it needs to know of those it has tried.
-/

namespace ConcreteSyntax

/-- The greatest of these lengths, or none if there are no such lengths. -/
def IsLongest (lengths : Set Nat) : Option Nat → Prop
  | some n => IsGreatest lengths n
  | none => lengths = ∅

namespace IsLongest

variable {lengths lengths' : Set Nat} {taken taken' : Option Nat} {n : Nat}

theorem mem (h : IsLongest lengths (some n)) : n ∈ lengths := h.1

theorem unique (h : IsLongest lengths taken) (h' : IsLongest lengths taken') : taken = taken' := by
  cases taken with
  | none =>
      cases taken' with
      | none => rfl
      | some n' =>
          obtain rfl : lengths = ∅ := h
          exact absurd h'.mem (Set.notMem_empty n')
  | some n =>
      cases taken' with
      | none =>
          obtain rfl : lengths = ∅ := h'
          exact absurd h.mem (Set.notMem_empty n)
      | some n' => rw [IsGreatest.unique h h']

/-- Among more lengths there is one that is no shorter. -/
theorem mono (h : IsLongest lengths (some n)) (h' : IsLongest lengths' taken')
    (hsub : lengths ⊆ lengths') : ∃ n', n ≤ n' ∧ taken' = some n' := by
  cases taken' with
  | none =>
      obtain rfl : lengths' = ∅ := h'
      exact absurd (hsub h.mem) (Set.notMem_empty n)
  | some n' => exact ⟨n', h'.2 (hsub h.mem), rfl⟩

end IsLongest

namespace MatchMode

variable {accepts : Nat → Bool} {tolerance low high length misses n : Nat} {best : Option Nat}

/-! ## Windows within bounds -/

/-- Nothing is added by a length that is refused. -/
theorem within_succ_of_refused (h : accepts (high + 1) = false) :
    {n | low ≤ n ∧ n ≤ high + 1 ∧ accepts n = true} =
      {n | low ≤ n ∧ n ≤ high ∧ accepts n = true} := by
  ext n
  refine ⟨fun ⟨hlow, hhigh, hn⟩ => ⟨hlow, ?_, hn⟩, fun ⟨hlow, hhigh, hn⟩ => ⟨hlow, by omega, hn⟩⟩
  refine Nat.le_of_lt_succ (Nat.lt_of_le_of_ne hhigh ?_)
  rintro rfl
  rw [h] at hn
  cases hn

theorem longestFrom_isLongest (low : Nat) (accepts : Nat → Bool) : ∀ high,
    IsLongest {n | low ≤ n ∧ n ≤ high ∧ accepts n = true} (longestFrom low accepts high)
  | 0 => by
      rw [longestFrom]
      split
      · rename_i hempty
        exact ⟨⟨Nat.le_of_eq hempty.1, Nat.le_refl 0, hempty.2⟩, fun n hn => hn.2.1⟩
      · rename_i hempty
        refine Set.eq_empty_iff_forall_notMem.mpr fun n ⟨hlow, hhigh, hn⟩ => hempty ?_
        obtain rfl := Nat.le_zero.mp hhigh
        exact ⟨Nat.le_zero.mp hlow, hn⟩
  | high + 1 => by
      rw [longestFrom]
      split
      · rename_i hlow
        refine Set.eq_empty_iff_forall_notMem.mpr fun n hn => ?_
        exact absurd (Nat.le_trans hn.1 hn.2.1) (Nat.not_le_of_lt hlow)
      · rename_i hlow
        split
        · rename_i hacc
          exact ⟨⟨Nat.le_of_not_lt hlow, Nat.le_refl _, hacc⟩, fun n hn => hn.2.1⟩
        · rename_i hacc
          rw [within_succ_of_refused (Bool.eq_false_iff.mpr hacc)]
          exact longestFrom_isLongest low accepts high

/-! ## Windows that grow -/

/-- Of any `tolerance + 1` lengths in a row from 1 to `length` one is accepted. -/
def Unbroken (tolerance : Nat) (accepts : Nat → Bool) (length : Nat) : Prop :=
  ∀ first, 1 ≤ first → first + tolerance ≤ length →
    ∃ n, first ≤ n ∧ n ≤ first + tolerance ∧ accepts n = true

theorem Unbroken.of_le_tolerance (h : length ≤ tolerance) : Unbroken tolerance accepts length := by
  intro first hfirst hlast
  omega

theorem Unbroken.mono {tolerance' : Nat} (h : Unbroken tolerance accepts length)
    (htolerance : tolerance ≤ tolerance') : Unbroken tolerance' accepts length := by
  intro first hfirst hlast
  obtain ⟨n, hn, hle, hacc⟩ := h first hfirst (by omega)
  exact ⟨n, hn, by omega, hacc⟩

theorem Unbroken.succ (h : Unbroken tolerance accepts length)
    (hlast : tolerance ≤ length →
      ∃ n, length + 1 - tolerance ≤ n ∧ n ≤ length + 1 ∧ accepts n = true) :
    Unbroken tolerance accepts (length + 1) := by
  intro first hfirst hle
  by_cases hshorter : first + tolerance ≤ length
  · exact h first hfirst hshorter
  · obtain ⟨n, hn, hle, hacc⟩ := hlast (by omega)
    exact ⟨n, by omega, by omega, hacc⟩

/-- The lengths up to `high` that the search gets to and that are accepted. -/
def reached (tolerance : Nat) (accepts : Nat → Bool) (high : Nat) : Set Nat :=
  {n | 1 ≤ n ∧ n ≤ high ∧ accepts n = true ∧ Unbroken tolerance accepts n}

theorem reached_eq_of_refused {high' : Nat} (hle : high ≤ high')
    (h : ∀ n, high < n → n ≤ high' → accepts n = true → ¬ Unbroken tolerance accepts n) :
    reached tolerance accepts high' = reached tolerance accepts high := by
  ext n
  constructor
  · rintro ⟨hone, hhigh, hacc, hunbroken⟩
    refine ⟨hone, ?_, hacc, hunbroken⟩
    by_contra hbeyond
    exact h n (Nat.lt_of_not_le hbeyond) hhigh hacc hunbroken
  · rintro ⟨hone, hhigh, hacc, hunbroken⟩
    exact ⟨hone, Nat.le_trans hhigh hle, hacc, hunbroken⟩

/-- What the search knows when it has tried the lengths from 1 to `length`: the best of
them, and that the last `misses` were refused, but not the one before these. -/
structure Grown (tolerance : Nat) (accepts : Nat → Bool) (length : Nat) (best : Option Nat)
    (misses : Nat) : Prop where
  unbroken : Unbroken tolerance accepts length
  longest : IsLongest (reached tolerance accepts length) best
  tolerated : misses ≤ tolerance
  refused : ∀ n, length - misses < n → n ≤ length → accepts n = false
  before : misses = length ∨ misses < length ∧ accepts (length - misses) = true

namespace Grown

theorem start : Grown tolerance accepts 0 none 0 where
  unbroken := .of_le_tolerance (Nat.zero_le _)
  longest := Set.eq_empty_iff_forall_notMem.mpr fun _ hn =>
    absurd (Nat.le_trans hn.1 hn.2.1) (Nat.not_succ_le_zero 0)
  tolerated := Nat.zero_le _
  refused _ hn hle := absurd hle (Nat.not_le_of_lt hn)
  before := .inl rfl

variable (h : Grown tolerance accepts length best misses)

include h

theorem accept (hacc : accepts (length + 1) = true) :
    Grown tolerance accepts (length + 1) (some (length + 1)) 0 := by
  have hunbroken : Unbroken tolerance accepts (length + 1) :=
    h.unbroken.succ fun _ => ⟨length + 1, Nat.sub_le _ _, Nat.le_refl _, hacc⟩
  refine ⟨hunbroken, ⟨⟨Nat.succ_pos _, Nat.le_refl _, hacc, hunbroken⟩, fun n hn => hn.2.1⟩,
    Nat.zero_le _, ?_, .inr ⟨Nat.succ_pos _, hacc⟩⟩
  intro n hn hle
  exact absurd hle (Nat.not_le_of_lt hn)

theorem refused_succ (hacc : accepts (length + 1) = false) (n : Nat)
    (hn : length - misses < n) (hle : n ≤ length + 1) : accepts n = false := by
  rcases Nat.lt_or_eq_of_le hle with hlt | rfl
  · exact h.refused n hn (Nat.le_of_lt_succ hlt)
  · exact hacc

theorem refuse (hacc : accepts (length + 1) = false) (hmisses : misses + 1 ≤ tolerance) :
    Grown tolerance accepts (length + 1) best (misses + 1) := by
  have hlongest : reached tolerance accepts (length + 1) = reached tolerance accepts length := by
    refine reached_eq_of_refused (Nat.le_succ _) fun n hlt hle hn => ?_
    obtain rfl : n = length + 1 := by omega
    rw [hacc] at hn
    cases hn
  refine ⟨h.unbroken.succ fun hlong => ?_, hlongest ▸ h.longest, hmisses, ?_, ?_⟩
  · -- so few are refused that the last one accepted is among those that count
    obtain ⟨-, hlast⟩ := h.before.resolve_left (by omega)
    exact ⟨length - misses, by omega, by omega, hlast⟩
  · intro n hn hle
    exact h.refused_succ hacc n (by omega) hle
  · rw [Nat.add_sub_add_right]
    exact h.before.imp (congrArg Nat.succ) fun hb => ⟨Nat.succ_lt_succ hb.1, hb.2⟩

/-- Nothing is reached beyond one length too many that is refused. -/
theorem exceed (hacc : accepts (length + 1) = false) (hmisses : tolerance < misses + 1)
    (hle : length ≤ high) : IsLongest (reached tolerance accepts high) best := by
  have htolerated := h.tolerated
  have hmisses_le : misses ≤ length := h.before.elim Nat.le_of_eq fun hb => Nat.le_of_lt hb.1
  have hbroken : reached tolerance accepts high = reached tolerance accepts length := by
    refine reached_eq_of_refused hle fun n hlt _ _ hunbroken => ?_
    obtain ⟨m, hm, hm', hmacc⟩ := hunbroken (length + 1 - misses) (by omega) (by omega)
    rw [h.refused_succ hacc m (by omega) (by omega)] at hmacc
    cases hmacc
  exact hbroken ▸ h.longest

end Grown

/-- The search finds the longest of the lengths that it gets to. -/
theorem grow_isLongest : ∀ {left length misses : Nat} {best : Option Nat},
    Grown tolerance accepts length best misses →
    IsLongest (reached tolerance accepts (length + left))
      (grow tolerance accepts left (length + 1) best misses)
  | 0, _, _, _, h => h.longest
  | left + 1, length, misses, best, h => by
      have hend : length + (left + 1) = length + 1 + left := by omega
      rw [grow, hend]
      split
      · rename_i hacc
        exact grow_isLongest (h.accept hacc)
      · rename_i hacc
        rw [Bool.not_eq_true] at hacc
        split
        · rename_i hmisses
          exact h.exceed hacc hmisses (by omega)
        · rename_i hmisses
          exact grow_isLongest (h.refuse hacc (Nat.le_of_not_lt hmisses))

/-! ## Lengths taken -/

/-- What is taken where the window grows, if `grown` is the longest it gets to. -/
def orEmpty (allowEmpty : Bool) (grown : Option Nat) : Option Nat :=
  grown.or (if allowEmpty then some 0 else none)

theorem orEmpty_eq_some_iff {allowEmpty : Bool} {grown : Option Nat} :
    orEmpty allowEmpty grown = some n ↔
      grown = some n ∨ grown = none ∧ allowEmpty = true ∧ n = 0 := by
  cases grown with
  | some m => simp [orEmpty]
  | none => cases allowEmpty <;> simp [orEmpty, eq_comm]

theorem length?_within (low high available : Nat) (accepts : Nat → Bool) :
    IsLongest {n | low ≤ n ∧ n ≤ min high available ∧ accepts n = true}
      ((within low high).length? accepts available) :=
  longestFrom_isLongest low accepts (min high available)

theorem length?_growing (tolerance : Nat) (allowEmpty : Bool) (accepts : Nat → Bool)
    (available : Nat) : ∃ grown, IsLongest (reached tolerance accepts available) grown ∧
      (growing tolerance allowEmpty).length? accepts available = orEmpty allowEmpty grown := by
  have hgrow : IsLongest (reached tolerance accepts (0 + available))
      (grow tolerance accepts available (0 + 1) none 0) := grow_isLongest .start
  rw [Nat.zero_add] at hgrow
  refine ⟨_, hgrow, ?_⟩
  simp only [length?, orEmpty, Nat.zero_add]
  cases grow tolerance accepts available 1 none 0 <;> rfl

theorem length?_le {mode : MatchMode} {available : Nat}
    (h : mode.length? accepts available = some n) : n ≤ available := by
  cases mode with
  | within low high =>
      have hlongest := length?_within low high available accepts
      rw [h] at hlongest
      exact Nat.le_trans hlongest.mem.2.1 (Nat.min_le_right _ _)
  | growing tolerance allowEmpty =>
      obtain ⟨grown, hlongest, heq⟩ := length?_growing tolerance allowEmpty accepts available
      rcases orEmpty_eq_some_iff.mp (heq.symm.trans h) with rfl | ⟨-, -, rfl⟩
      · exact hlongest.mem.2.1
      · exact Nat.zero_le _

/-- More tolerance reaches at least as far. -/
theorem length?_growing_mono {tolerance' available : Nat} {allowEmpty : Bool}
    (htolerance : tolerance ≤ tolerance')
    (h : (growing tolerance allowEmpty).length? accepts available = some n) :
    ∃ n', n ≤ n' ∧ (growing tolerance' allowEmpty).length? accepts available = some n' := by
  obtain ⟨grown, hlongest, heq⟩ := length?_growing tolerance allowEmpty accepts available
  obtain ⟨grown', hlongest', heq'⟩ := length?_growing tolerance' allowEmpty accepts available
  rw [heq']
  rcases orEmpty_eq_some_iff.mp (heq.symm.trans h) with rfl | ⟨-, rfl, rfl⟩
  · have hsub : reached tolerance accepts available ⊆ reached tolerance' accepts available :=
      fun m hm => ⟨hm.1, hm.2.1, hm.2.2.1, hm.2.2.2.mono htolerance⟩
    obtain ⟨n', hle, rfl⟩ := hlongest.mono hlongest' hsub
    exact ⟨n', hle, rfl⟩
  · cases grown' with
    | some n' => exact ⟨n', Nat.zero_le _, rfl⟩
    | none => exact ⟨0, Nat.le_refl 0, rfl⟩

/-- Where all refusals are tolerated, a window that grows gets to every length. -/
theorem length?_growing_eq_within {available : Nat} (htolerance : available ≤ tolerance)
    (hhigh : available ≤ high) :
    (growing tolerance false).length? accepts available =
      (within 1 high).length? accepts available := by
  obtain ⟨grown, hlongest, heq⟩ := length?_growing tolerance false accepts available
  have hall : reached tolerance accepts available =
      {n | 1 ≤ n ∧ n ≤ min high available ∧ accepts n = true} := by
    rw [Nat.min_eq_right hhigh]
    ext n
    constructor
    · rintro ⟨hone, hle, hacc, -⟩
      exact ⟨hone, hle, hacc⟩
    · rintro ⟨hone, hle, hacc⟩
      exact ⟨hone, hle, hacc, .of_le_tolerance (Nat.le_trans hle htolerance)⟩
  rw [heq, orEmpty, if_neg Bool.false_ne_true, Option.or_none]
  exact (hall ▸ hlongest).unique (length?_within 1 high available accepts)

end MatchMode

/-! ## Patterns -/

namespace Pattern

/-- An atom over a window of so many tokens, or a failure for want of a window. -/
def answer (path : Path) (start : Nat) : Option Nat → Reply Diagnosis Node
  | some n => .success (.atom path.symbol ⟨start, n⟩) (start + n)
  | none => .failure (.failed path start) start

theorem answer_injective (path : Path) (start : Nat) :
    Function.Injective (answer path start) := by
  rintro (_ | n) (_ | m) h
  · rfl
  · cases h
  · cases h
  · injection h with hatom hposition
    rw [Nat.add_left_cancel hposition]

theorem recognizeWith_eq_answer (mode : MatchMode) (accepts : List Char → Bool) {src : Source}
    (path : Path) {start : Nat} (hstart : start ≤ src.size) :
    recognizeWith mode accepts src path start = answer path start
      (mode.length? (fun n => accepts (src.window ⟨start, n⟩)) (src.size - start)) := by
  rw [recognizeWith, distance_of_le hstart, Reply.check_ok]
  cases h : mode.length? (fun n => accepts (src.window ⟨start, n⟩)) (src.size - start) with
  | some n =>
      have hle := MatchMode.length?_le h
      simp [answer, Source.advance?, hle]
  | none => rfl

end Pattern

open MatchMode Pattern in
/-- **Windows.** Whatever the expression is, as long as it is asked nothing but whether it
matches a window: within bounds, the longest window that matches is taken of those that
are allowed and for which tokens are left. A window that grows is taken as long as it
matches and no more shorter lengths in a row than are tolerated are passed that do not; if
there is no such length the empty window may do. So more tolerance never shortens or loses
a window, and as much tolerance as there are tokens left makes the window that grows the
longest of all. What is taken is the atom, with the cursor behind it. -/
theorem pattern_takes_longest (accepts : List Char → Bool) (src : Source) (path : Path)
    {start : Nat} (hstart : start ≤ src.size) :
    (∀ low high, ∃ taken,
        IsLongest {n | low ≤ n ∧ n ≤ min high (src.size - start) ∧
          accepts (src.window ⟨start, n⟩) = true} taken ∧
        recognizeWith (.within low high) accepts src path start = answer path start taken) ∧
      (∀ tolerance allowEmpty, ∃ grown,
        IsLongest {n | 1 ≤ n ∧ n ≤ src.size - start ∧ accepts (src.window ⟨start, n⟩) = true ∧
          Unbroken tolerance (fun m => accepts (src.window ⟨start, m⟩)) n} grown ∧
        recognizeWith (.growing tolerance allowEmpty) accepts src path start =
          answer path start (grown.or (if allowEmpty then some 0 else none))) ∧
      (∀ tolerance tolerance' allowEmpty n, tolerance ≤ tolerance' →
        recognizeWith (.growing tolerance allowEmpty) accepts src path start =
          answer path start (some n) →
        ∃ n', n ≤ n' ∧ recognizeWith (.growing tolerance' allowEmpty) accepts src path start =
          answer path start (some n')) ∧
      ∀ tolerance high, src.size - start ≤ tolerance → src.size - start ≤ high →
        recognizeWith (.growing tolerance false) accepts src path start =
          recognizeWith (.within 1 high) accepts src path start := by
  simp only [recognizeWith_eq_answer _ accepts path hstart]
  refine ⟨fun low high => ?_, fun tolerance allowEmpty => ?_, ?_, ?_⟩
  · exact ⟨_, length?_within low high _ _, rfl⟩
  · obtain ⟨grown, hlongest, heq⟩ := length?_growing tolerance allowEmpty
      (fun n => accepts (src.window ⟨start, n⟩)) (src.size - start)
    exact ⟨grown, hlongest, congrArg (answer path start) heq⟩
  · intro tolerance tolerance' allowEmpty n htolerance h
    obtain ⟨n', hle, heq⟩ := length?_growing_mono htolerance (answer_injective path start h)
    exact ⟨n', hle, congrArg (answer path start) heq⟩
  · intro tolerance high htolerance hhigh
    rw [length?_growing_eq_within htolerance hhigh]

/-- Is this a hexadecimal number? -/
def isHexadecimal : List Char → Bool
  | '0' :: 'x' :: digits => !digits.isEmpty && digits.all fun c => c.isDigit || c == 'f'
  | _ => false

/-- Two lengths have to be passed before the first digit, and the semicolon ends the number
however many more are tolerated. -/
theorem pattern_takes_longest_number :
    0 ≤ (Source.ofString "0x1f;").size ∧ 2 ≤ 9 ∧
      Pattern.recognizeWith (.growing 1 false) isHexadecimal (Source.ofString "0x1f;")
        (.root "number") 0 = .failure (.failed (.root "number") 0) 0 ∧
      Pattern.recognizeWith (.growing 2 false) isHexadecimal (Source.ofString "0x1f;")
        (.root "number") 0 = Pattern.answer (.root "number") 0 (some 4) ∧
      (∃ n, 4 ≤ n ∧ Pattern.recognizeWith (.growing 9 false) isHexadecimal
        (Source.ofString "0x1f;") (.root "number") 0 =
          Pattern.answer (.root "number") 0 (some n)) ∧
      (Source.ofString "0x1f;").size - 0 ≤ 9 ∧ (Source.ofString "0x1f;").size - 0 ≤ 7 ∧
      Pattern.recognizeWith (.growing 9 false) isHexadecimal (Source.ofString "0x1f;")
          (.root "number") 0 =
        Pattern.recognizeWith (.within 1 7) isHexadecimal (Source.ofString "0x1f;")
          (.root "number") 0 := by
  obtain ⟨-, -, hmono, hall⟩ := pattern_takes_longest isHexadecimal (Source.ofString "0x1f;")
    (.root "number") (Nat.zero_le _)
  have hnumber : Pattern.recognizeWith (.growing 2 false) isHexadecimal
      (Source.ofString "0x1f;") (.root "number") 0 =
        Pattern.answer (.root "number") 0 (some 4) := rfl
  exact ⟨Nat.zero_le _, by decide, rfl, hnumber, hmono 2 9 false 4 (by decide) hnumber,
    by decide, by decide, hall 9 7 (by decide) (by decide)⟩

end ConcreteSyntax
