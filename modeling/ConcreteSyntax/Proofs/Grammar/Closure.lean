import ConcreteSyntax.Grammar.Violation
import Mathlib.Data.List.Perm.Subperm
import Mathlib.Logic.Relation

/-!
# Symbols reached

The rounds by which symbols are collected stop only when nothing new is found or
when there are as many symbols as productions. So they collect just the symbols
that are reached.
-/

namespace ConcreteSyntax

theorem nodup_eraseDups {α : Type} [BEq α] [LawfulBEq α] : ∀ xs : List α, xs.eraseDups.Nodup
  | [] => by simp
  | x :: xs => by
      rw [List.eraseDups_cons, List.nodup_cons]
      refine ⟨by simp, nodup_eraseDups _⟩
  termination_by xs => xs.length
  decreasing_by
    rw [List.length_cons]
    exact Nat.lt_succ_of_le (List.length_filter_le _ _)

namespace Grammar

variable (g : Grammar) (related : Rule → List String)

theorem defines_iff {s : String} : g.defines s = true ↔ s ∈ g.symbols := by
  simp [defines, find?, symbols, List.find?_isSome]

/-- One symbol is related to another, which is defined. -/
def Leads (s t : String) : Prop := t ∈ g.successors related s

variable {g related}

theorem Leads.mem_symbols {s t : String} (h : g.Leads related s t) : s ∈ g.symbols ∧ t ∈ g.symbols := by
  unfold Leads successors at h
  cases hfind : g.find? s with
  | none => simp [hfind] at h
  | some r =>
      rw [hfind, List.mem_filter] at h
      exact ⟨g.defines_iff.mp (by simp [defines, hfind]), g.defines_iff.mp h.2⟩

/-- A set of symbols on the way to being closed. Only `frontier` has not been
looked behind yet. -/
structure Explored (g : Grammar) (related : Rule → List String) (seen frontier : List String) :
    Prop where
  nodup : seen.Nodup
  defined : seen ⊆ g.symbols
  frontier_subset : frontier ⊆ seen
  behind : ∀ s ∈ seen, s ∉ frontier → ∀ t, g.Leads related s t → t ∈ seen

/-- What `spread` adds to the symbols seen in one round. -/
def fresh (g : Grammar) (related : Rule → List String) (seen frontier : List String) :
    List String :=
  ((frontier.flatMap (g.successors related)).filter fun s => !seen.contains s).eraseDups

theorem mem_fresh_iff {seen frontier : List String} {t : String} :
    t ∈ g.fresh related seen frontier ↔ (∃ s ∈ frontier, g.Leads related s t) ∧ t ∉ seen := by
  simp [fresh, Leads]

theorem spread_succ (n : Nat) (seen frontier : List String) :
    g.spread related (n + 1) seen frontier =
      if (g.fresh related seen frontier).isEmpty then seen
      else g.spread related n (seen ++ g.fresh related seen frontier)
        (g.fresh related seen frontier) := rfl

namespace Explored

variable {seen frontier : List String}

/-- All that the frontier leads to is seen or fresh. -/
theorem leads (h : Explored g related seen frontier) {s t : String} (hs : s ∈ seen)
    (hst : g.Leads related s t) : t ∈ seen ∨ t ∈ g.fresh related seen frontier := by
  by_cases ht : t ∈ seen
  · exact Or.inl ht
  · by_cases hfrontier : s ∈ frontier
    · exact Or.inr (mem_fresh_iff.mpr ⟨⟨s, hfrontier, hst⟩, ht⟩)
    · exact Or.inl (h.behind s hs hfrontier t hst)

/-- One round keeps what is known of the symbols seen. -/
theorem step (h : Explored g related seen frontier) :
    Explored g related (seen ++ g.fresh related seen frontier)
      (g.fresh related seen frontier) where
  nodup := by
    refine List.nodup_append.mpr ⟨h.nodup, nodup_eraseDups _, ?_⟩
    rintro s hs t ht rfl
    exact (mem_fresh_iff.mp ht).2 hs
  defined := by
    apply List.append_subset.mpr
    refine ⟨h.defined, ?_⟩
    intro t ht
    obtain ⟨⟨s, -, hst⟩, -⟩ := mem_fresh_iff.mp ht
    exact hst.mem_symbols.2
  frontier_subset := List.subset_append_right _ _
  behind := by
    intro s hs hfrontier t hst
    rw [List.mem_append] at hs ⊢
    exact h.leads (hs.resolve_right hfrontier) hst

theorem length_le (h : Explored g related seen frontier) :
    seen.length ≤ g.productions.length := by
  have hle := (List.subperm_of_subset h.nodup h.defined).length_le
  rwa [symbols, List.length_map] at hle

/-- **Rounds saturate.** If there are rounds enough for all productions, the
outcome is explored with nothing left to look behind. -/
theorem spread : ∀ {n : Nat} {seen frontier : List String},
    Explored g related seen frontier → g.productions.length ≤ n + seen.length →
    Explored g related (g.spread related n seen frontier) [] ∧
      seen ⊆ g.spread related n seen frontier
  | 0, seen, frontier, h, hn => by
      rw [Grammar.spread]
      refine ⟨⟨h.nodup, h.defined, by simp, ?_⟩, List.Subset.refl _⟩
      intro s hs _ t hst
      -- every symbol is among those seen already
      have hperm := (List.subperm_of_subset h.nodup h.defined).perm_of_length_le (by
        rw [symbols, List.length_map]
        omega)
      exact hperm.symm.subset hst.mem_symbols.2
  | n + 1, seen, frontier, h, hn => by
      rw [spread_succ]
      cases hfresh : (g.fresh related seen frontier).isEmpty with
      | true =>
          rw [List.isEmpty_iff] at hfresh
          refine ⟨⟨h.nodup, h.defined, by simp, ?_⟩, List.Subset.refl _⟩
          intro s hs _ t hst
          have hleads := h.leads hs hst
          rw [hfresh] at hleads
          exact hleads.resolve_right List.not_mem_nil
      | false =>
          have hpos : 0 < (g.fresh related seen frontier).length := by
            rw [List.length_pos_iff, ne_eq, ← List.isEmpty_iff, hfresh]
            simp
          have hnext := h.step.spread (n := n) (by rw [List.length_append]; omega)
          refine ⟨hnext.1, ?_⟩
          intro s hs
          exact hnext.2 (List.mem_append_left _ hs)

end Explored

/-- All that is seen at the end is reached from what was seen at the start. -/
theorem spread_reached : ∀ {n : Nat} {seen frontier : List String} {t : String},
    frontier ⊆ seen → t ∈ g.spread related n seen frontier →
    ∃ s ∈ seen, Relation.ReflTransGen (g.Leads related) s t
  | 0, seen, frontier, t, _, ht => ⟨t, ht, .refl⟩
  | n + 1, seen, frontier, t, hsub, ht => by
      rw [spread_succ] at ht
      split at ht
      · exact ⟨t, ht, .refl⟩
      · obtain ⟨s, hs, hst⟩ := spread_reached (List.subset_append_right _ _) ht
        rcases List.mem_append.mp hs with hs | hs
        · exact ⟨s, hs, hst⟩
        · obtain ⟨⟨u, hu, hus⟩, -⟩ := mem_fresh_iff.mp hs
          exact ⟨u, hsub hu, .head hus hst⟩

variable (g related)

theorem closure_explored (start : List String) :
    Explored g related (g.closure related start) [] ∧
      ∀ s ∈ start, g.defines s = true → s ∈ g.closure related start := by
  have hstart : Explored g related (start.filter g.defines).eraseDups
      (start.filter g.defines).eraseDups := by
    refine ⟨nodup_eraseDups _, ?_, List.Subset.refl _, fun s hs h => absurd hs h⟩
    intro s hs
    rw [List.mem_eraseDups, List.mem_filter] at hs
    exact g.defines_iff.mp hs.2
  have hspread := hstart.spread (Nat.le_add_right g.productions.length _)
  refine ⟨hspread.1, ?_⟩
  intro s hs hdefined
  apply hspread.2
  rw [List.mem_eraseDups, List.mem_filter]
  exact ⟨hs, hdefined⟩

/-- **Closures.** The symbols collected are the defined ones that are reached. -/
theorem mem_closure_iff {start : List String} {t : String} :
    t ∈ g.closure related start ↔
      ∃ s ∈ start, g.defines s = true ∧ Relation.ReflTransGen (g.Leads related) s t := by
  constructor
  · intro ht
    obtain ⟨s, hs, hst⟩ := spread_reached (List.Subset.refl _) ht
    rw [List.mem_eraseDups, List.mem_filter] at hs
    exact ⟨s, hs.1, hs.2, hst⟩
  · rintro ⟨s, hs, hdefined, hst⟩
    obtain ⟨hexplored, hsub⟩ := g.closure_explored related start
    induction hst with
    | refl => exact hsub s hs hdefined
    | tail _ hbc ih => exact hexplored.behind _ ih List.not_mem_nil _ hbc

end Grammar

end ConcreteSyntax
