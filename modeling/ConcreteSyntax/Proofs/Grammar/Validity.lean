import ConcreteSyntax.Proofs.Grammar.Relations
import Mathlib.Data.List.Duplicate

/-!
# Valid grammars

A list of productions is accepted just if it is a valid grammar. If it is not, every
kind of violation is reported just if something offends, once and with all offenders.
-/

namespace ConcreteSyntax.Grammar

/-! ## First productions -/

/-- A symbol leads to the same production among the first ones as among all. -/
theorem find?_firsts (s : String) (rs : List Production) :
    (firsts rs).find? (fun r => r.symbol == s) = rs.find? fun r => r.symbol == s := by
  induction rs with
  | nil => rfl
  | cons r rest ih =>
      rw [firsts, List.find?_cons, List.find?_cons]
      cases hr : r.symbol == s with
      | true => rfl
      | false =>
          -- what is left out for having the symbol of `r` does not have `s`
          have hkept (t : Production) :
              decide ((t.symbol != r.symbol) = true ∧ (t.symbol == s) = true) =
                (t.symbol == s) := by
            by_cases ht : t.symbol = s
            · rw [beq_eq_false_iff_ne] at hr
              simp [ht, Ne.symm hr]
            · simp [ht]
          show ((firsts rest).filter fun t => t.symbol != r.symbol).find? _ = _
          simp only [List.find?_filter, hkept, ih]

theorem nodup_firsts (rs : List Production) : ((firsts rs).map Production.symbol).Nodup := by
  induction rs with
  | nil => exact List.nodup_nil
  | cons r rest ih =>
      rw [firsts, List.map_cons, List.nodup_cons]
      refine ⟨?_, ih.sublist (List.filter_sublist.map _)⟩
      intro h
      obtain ⟨t, ht, hsymbol⟩ := List.mem_map.mp h
      simp [hsymbol] at ht

theorem firsts_eq_self {rs : List Production} (h : (rs.map Production.symbol).Nodup) :
    firsts rs = rs := by
  induction rs with
  | nil => rfl
  | cons r rest ih =>
      rw [List.map_cons, List.nodup_cons] at h
      rw [firsts, ih h.2, List.filter_eq_self.mpr]
      intro t ht
      rw [bne_iff_ne]
      intro hsame
      exact h.1 (hsame ▸ List.mem_map_of_mem ht)

/-- Symbols are repeated if they were found so, were seen and come again, or come
twice. -/
theorem mem_repeated_iff {s : String} : ∀ {seen found : List String} {rs : List Production},
    s ∈ repeated seen found rs ↔ s ∈ found ∨
      (s ∈ seen ∧ s ∈ rs.map Production.symbol) ∨ List.Duplicate s (rs.map Production.symbol)
  | seen, found, [] => by simp [repeated, List.not_duplicate_nil]
  | seen, found, r :: rest => by
      rw [repeated, List.map_cons, List.duplicate_cons_iff]
      by_cases hseen : r.symbol ∈ seen
      · by_cases hfound : r.symbol ∈ found
        · rw [if_pos hseen, if_pos hfound, mem_repeated_iff]
          grind
        · rw [if_pos hseen, if_neg hfound, mem_repeated_iff]
          grind
      · rw [if_neg hseen, mem_repeated_iff]
        grind

theorem nodup_repeated : ∀ {seen found : List String} {rs : List Production},
    found.Nodup → (repeated seen found rs).Nodup
  | _, _, [], h => h
  | seen, found, r :: rest, h => by
      rw [repeated]
      by_cases hseen : r.symbol ∈ seen
      · by_cases hfound : r.symbol ∈ found
        · rw [if_pos hseen, if_pos hfound]
          exact nodup_repeated h
        · rw [if_pos hseen, if_neg hfound]
          refine nodup_repeated (List.nodup_append.mpr ⟨h, List.nodup_singleton _, ?_⟩)
          rintro s hs t ht rfl
          exact hfound (List.mem_singleton.mp ht ▸ hs)
      · rw [if_neg hseen]
        exact nodup_repeated h

/-! ## Relations of the first productions -/

section

variable {root : String} {rs : List Production}

theorem find?_ofProductions : (ofProductions root rs).find? = Grammar.find? ⟨root, rs⟩ := by
  funext s
  exact find?_firsts s rs

theorem mem_symbols_ofProductions {s : String} :
    s ∈ (ofProductions root rs).symbols ↔ s ∈ Grammar.symbols ⟨root, rs⟩ :=
  mem_symbols_congr find?_ofProductions

theorem least_ofProductions (has : (String → Prop) → Rule → Prop) :
    (ofProductions root rs).Least has = Least ⟨root, rs⟩ has :=
  least_congr find?_ofProductions has

theorem refersTo_ofProductions : (ofProductions root rs).RefersTo = RefersTo ⟨root, rs⟩ :=
  refersTo_congr find?_ofProductions

theorem opensWith_ofProductions : (ofProductions root rs).OpensWith = OpensWith ⟨root, rs⟩ :=
  opensWith_congr find?_ofProductions

end

/-! ## Offenders -/

section

variable {g : Grammar}

theorem mem_unknownReferences_iff (hdistinct : g.symbols.Nodup) {s t : String} :
    (s, t) ∈ g.unknownReferences ↔ g.RefersTo s t ∧ t ∉ g.symbols := by
  simp only [unknownReferences, List.mem_eraseDups, List.mem_flatMap, List.mem_map,
    List.mem_filter, Prod.mk.injEq, RefersTo, find?_eq_some_iff hdistinct, Rule.mem_references_iff,
    ← g.defines_iff, Bool.not_eq_true', Bool.not_eq_true]
  constructor
  · rintro ⟨r, hr, u, ⟨hmentions, hunknown⟩, rfl, rfl⟩
    exact ⟨⟨r, ⟨hr, rfl⟩, hmentions⟩, hunknown⟩
  · rintro ⟨⟨r, ⟨hr, rfl⟩, hmentions⟩, hunknown⟩
    exact ⟨r, hr, t, ⟨hmentions, hunknown⟩, rfl, rfl⟩

theorem mem_unreachable_iff (hroot : g.root ∈ g.symbols) {s : String} :
    s ∈ g.unreachable ↔ s ∈ g.symbols ∧ ¬ Relation.ReflTransGen g.RefersTo g.root s := by
  simp only [unreachable, List.mem_filter, Bool.not_eq_true', ← Bool.not_eq_true,
    List.contains_iff_mem, mem_reachable_iff]
  tauto

/-- The production refers to something, and to nothing that is defined. -/
def Dangling (g : Grammar) (s : String) : Prop :=
  (∃ t, g.RefersTo s t) ∧ ∀ t, g.RefersTo s t → t ∉ g.symbols

theorem mem_nonTerminating_iff (hdistinct : g.symbols.Nodup) {s : String} :
    s ∈ g.nonTerminating ↔ s ∈ g.symbols ∧ ¬ g.Productive s ∧ ¬ g.Dangling s := by
  have hdangling {r : Production} (hr : r ∈ g.productions) :
      g.refersOnlyToUnknown r = true ↔ g.Dangling r.symbol := by
    have hrefers (t : String) : g.RefersTo r.symbol t ↔ t ∈ r.rule.references := by
      rw [RefersTo, (find?_eq_some_iff hdistinct).mpr ⟨hr, rfl⟩]
      simp [Rule.mem_references_iff]
    simp only [refersOnlyToUnknown, Dangling, hrefers, Bool.and_eq_true, Bool.not_eq_true',
      List.all_eq_true, ← g.defines_iff, Bool.not_eq_true, List.isEmpty_eq_false_iff_exists_mem]
  simp only [nonTerminating, List.mem_map, List.mem_filter, Bool.and_eq_true, Bool.not_eq_true',
    ← Bool.not_eq_true, List.contains_iff_mem, mem_productive_iff hdistinct]
  constructor
  · rintro ⟨r, ⟨hr, hproductive, hknown⟩, rfl⟩
    exact ⟨List.mem_map_of_mem hr, hproductive, fun h => hknown ((hdangling hr).mpr h)⟩
  · rintro ⟨hs, hproductive, hknown⟩
    obtain ⟨r, hr, rfl⟩ := List.mem_map.mp hs
    exact ⟨r, ⟨hr, hproductive, fun h => hknown ((hdangling hr).mp h)⟩, rfl⟩

end

/-! ## Reports -/

/-- There is a violation of a kind just if something offends, and it lists what does,
nothing twice. -/
structure Reports {α : Type} (vs : List Violation) (kind : List α → Violation)
    (offends : α → Prop) : Prop where
  present : (∃ xs, kind xs ∈ vs) ↔ ∃ x, offends x
  exact : ∀ xs, kind xs ∈ vs → xs.Nodup ∧ ∀ x, x ∈ xs ↔ offends x

theorem mem_violationUnlessEmpty_iff {α : Type} {kind : List α → Violation} {xs : List α}
    {v : Violation} : v ∈ violationUnlessEmpty kind xs ↔ xs ≠ [] ∧ v = kind xs := by
  unfold violationUnlessEmpty
  cases xs <;> simp

theorem Reports.of_mem_iff {α : Type} {vs : List Violation} {kind : List α → Violation}
    {offends : α → Prop} (xs : List α) (hmem : ∀ ys, kind ys ∈ vs ↔ xs ≠ [] ∧ ys = xs)
    (hnodup : xs.Nodup) (hexact : ∀ x, x ∈ xs ↔ offends x) : Reports vs kind offends where
  present := by
    simp only [hmem, ← hexact, exists_and_left, exists_eq, and_true, ne_eq,
      List.eq_nil_iff_forall_not_mem, not_forall, not_not]
  exact ys hys := by
    obtain ⟨-, rfl⟩ := (hmem ys).mp hys
    exact ⟨hnodup, hexact⟩

/-- The violations of a grammar are accounted for in full. Symbols given twice stand for
their first productions in all that follows. -/
structure Accounts (g : Grammar) (vs : List Violation) : Prop where
  /-- No kind of violation occurs twice. -/
  once : (vs.map Violation.ctorIdx).Nodup
  missingRoot : ∀ s, .missingRoot s ∈ vs ↔ s = g.root ∧ g.root ∉ g.symbols
  duplicate : Reports vs .duplicateProductions fun s => List.Duplicate s g.symbols
  unknown : Reports vs .unknownReferences fun st => g.RefersTo st.1 st.2 ∧ st.2 ∉ g.symbols
  /-- Without a root nothing would be reached, so nothing is said about it. -/
  unreachable : Reports vs .unreachableProductions fun s =>
    g.root ∈ g.symbols ∧ s ∈ g.symbols ∧ ¬ Relation.ReflTransGen g.RefersTo g.root s
  nonTerminating : Reports vs .nonTerminating fun s =>
    s ∈ g.symbols ∧ ¬ g.Productive s ∧ ¬ g.Dangling s
  unboundedRecursion : Reports vs .unboundedRecursion fun s => Relation.TransGen g.OpensWith s s

/-- The violations come in a fixed order of their kinds. -/
theorem violationsOf_once (root : String) (rs : List Production) :
    ((violationsOf root rs).map Violation.ctorIdx).Nodup := by
  have hkind {α : Type} {kind : List α → Violation} (xs : List α) {n : Nat}
      (h : ∀ xs, (kind xs).ctorIdx = n) :
      ((violationUnlessEmpty kind xs).map Violation.ctorIdx).Sublist [n] := by
    cases xs with
    | nil => exact List.nil_sublist _
    | cons x xs => simp [violationUnlessEmpty, h]
  have horder : ((violationsOf root rs).map Violation.ctorIdx).Sublist
      ([1] ++ ([0] ++ [2] ++ [3] ++ [4] ++ [5])) := by
    rw [violationsOf, violations]
    simp only [List.map_append]
    apply List.Sublist.append
    · exact hkind _ fun _ => rfl
    · refine .append (.append (.append (.append ?_ ?_) ?_) ?_) ?_
      · split
        · exact List.nil_sublist _
        · exact List.Sublist.refl _
      · exact hkind _ fun _ => rfl
      · split
        · exact hkind _ fun _ => rfl
        · exact List.nil_sublist _
      · exact hkind _ fun _ => rfl
      · exact hkind _ fun _ => rfl
  have hnodup : ([1] ++ ([0] ++ [2] ++ [3] ++ [4] ++ [5])).Nodup := by decide
  exact hnodup.sublist horder

/-- Of every kind a violation is reported if there are offenders. -/
theorem mem_violationsOf_iff {root : String} {rs : List Production} {v : Violation} :
    v ∈ violationsOf root rs ↔
      (repeated [] [] rs ≠ [] ∧ v = .duplicateProductions (repeated [] [] rs)) ∨
      ((ofProductions root rs).defines root = false ∧ v = .missingRoot root) ∨
      ((ofProductions root rs).unknownReferences ≠ [] ∧
        v = .unknownReferences (ofProductions root rs).unknownReferences) ∨
      ((ofProductions root rs).defines root = true ∧ (ofProductions root rs).unreachable ≠ [] ∧
        v = .unreachableProductions (ofProductions root rs).unreachable) ∨
      ((ofProductions root rs).nonTerminating ≠ [] ∧
        v = .nonTerminating (ofProductions root rs).nonTerminating) ∨
      ((ofProductions root rs).leftRecursive ≠ [] ∧
        v = .unboundedRecursion (ofProductions root rs).leftRecursive) := by
  have hroot : (ofProductions root rs).root = root := rfl
  simp only [violationsOf, violations, hroot, List.mem_append, mem_violationUnlessEmpty_iff]
  cases h : (ofProductions root rs).defines root
  · simp [or_assoc]
  · simp [mem_violationUnlessEmpty_iff, or_assoc]

/-- **Violations.** All violations of a list of productions are accounted for. -/
theorem violationsOf_accounts (root : String) (rs : List Production) :
    Accounts ⟨root, rs⟩ (violationsOf root rs) := by
  have hdistinct : (ofProductions root rs).symbols.Nodup := nodup_firsts rs
  have hfilter {q : String → Bool} : ((ofProductions root rs).symbols.filter q).Nodup :=
    hdistinct.sublist List.filter_sublist
  have hroot : (ofProductions root rs).defines root = true ↔ root ∈ symbols ⟨root, rs⟩ := by
    rw [defines_iff, mem_symbols_ofProductions]
  constructor
  case once => exact violationsOf_once root rs
  case missingRoot =>
    intro s
    simp [mem_violationsOf_iff, ← hroot, and_comm]
  case duplicate =>
    refine .of_mem_iff (repeated [] [] rs) ?_ (nodup_repeated List.nodup_nil) ?_
    · simp [mem_violationsOf_iff]
    · intro s
      simp [mem_repeated_iff, symbols]
  case unknown =>
    refine .of_mem_iff (ofProductions root rs).unknownReferences ?_ (nodup_eraseDups _) ?_
    · simp [mem_violationsOf_iff]
    · rintro ⟨s, t⟩
      rw [mem_unknownReferences_iff hdistinct, refersTo_ofProductions, mem_symbols_ofProductions]
  case unreachable =>
    cases h : (ofProductions root rs).defines root with
    | false =>
        refine .of_mem_iff [] ?_ List.nodup_nil ?_
        · simp [mem_violationsOf_iff, h]
        · simp [← hroot, h]
    | true =>
        refine .of_mem_iff (ofProductions root rs).unreachable ?_ hfilter ?_
        · simp [mem_violationsOf_iff, h]
        · intro s
          have hmem : (ofProductions root rs).root ∈ (ofProductions root rs).symbols :=
            (ofProductions root rs).defines_iff.mp h
          rw [mem_unreachable_iff hmem, mem_symbols_ofProductions, refersTo_ofProductions]
          exact ⟨fun hs => ⟨hroot.mp h, hs⟩, And.right⟩
  case nonTerminating =>
    refine .of_mem_iff (ofProductions root rs).nonTerminating ?_ ?_ ?_
    · simp [mem_violationsOf_iff]
    · exact hdistinct.sublist (List.filter_sublist.map _)
    · intro s
      rw [mem_nonTerminating_iff hdistinct]
      simp only [Productive, least_ofProductions, Dangling, refersTo_ofProductions,
        mem_symbols_ofProductions]
  case unboundedRecursion =>
    refine .of_mem_iff (ofProductions root rs).leftRecursive ?_ hfilter ?_
    · simp [mem_violationsOf_iff]
    · intro s
      rw [mem_leftRecursive_iff_opensWith hdistinct, opensWith_ofProductions]

/-! ## Acceptance -/

/-- What a root and a list of productions have to be. -/
structure Valid (g : Grammar) : Prop where
  distinct : g.symbols.Nodup
  rooted : g.root ∈ g.symbols
  closed : ∀ r ∈ g.productions, ∀ s, r.rule.Mentions s → s ∈ g.symbols
  reached : ∀ s ∈ g.symbols, Relation.ReflTransGen g.RefersTo g.root s
  productive : ∀ s ∈ g.symbols, g.Productive s
  guarded : ∀ s, ¬ Relation.TransGen g.OpensWith s s

/-- Nothing offends in a valid grammar. -/
theorem Valid.violations_eq_nil {g : Grammar} {vs : List Violation} (hvalid : g.Valid)
    (h : g.Accounts vs) : vs = [] := by
  rw [List.eq_nil_iff_forall_not_mem]
  have hclosed {s t : String} (hst : g.RefersTo s t) : t ∈ g.symbols := by
    obtain ⟨r, hr, hmentions⟩ := hst
    exact hvalid.closed r (List.mem_of_find?_eq_some hr) t hmentions
  intro v hv
  cases v with
  | missingRoot s => exact ((h.missingRoot s).mp hv).2 hvalid.rooted
  | duplicateProductions xs =>
      obtain ⟨s, hs⟩ := h.duplicate.present.mp ⟨xs, hv⟩
      exact hs.not_nodup hvalid.distinct
  | unknownReferences xs =>
      obtain ⟨⟨s, t⟩, hst, ht⟩ := h.unknown.present.mp ⟨xs, hv⟩
      exact ht (hclosed hst)
  | unreachableProductions xs =>
      obtain ⟨s, -, hs, hreached⟩ := h.unreachable.present.mp ⟨xs, hv⟩
      exact hreached (hvalid.reached s hs)
  | nonTerminating xs =>
      obtain ⟨s, hs, hproductive, -⟩ := h.nonTerminating.present.mp ⟨xs, hv⟩
      exact hproductive (hvalid.productive s hs)
  | unboundedRecursion xs =>
      obtain ⟨s, hs⟩ := h.unboundedRecursion.present.mp ⟨xs, hv⟩
      exact hvalid.guarded s hs

theorem Reports.none {α : Type} {kind : List α → Violation} {offends : α → Prop}
    (h : Reports [] kind offends) (x : α) : ¬ offends x := by
  intro hx
  obtain ⟨xs, hxs⟩ := h.present.mpr ⟨x, hx⟩
  exact absurd hxs List.not_mem_nil

/-- Where nothing offends the grammar is valid. -/
theorem Accounts.valid {g : Grammar} (h : g.Accounts []) : g.Valid := by
  have hdistinct : g.symbols.Nodup := List.nodup_iff_forall_not_duplicate.mpr h.duplicate.none
  have hroot : g.root ∈ g.symbols := by
    by_contra hroot
    exact absurd ((h.missingRoot g.root).mpr ⟨rfl, hroot⟩) List.not_mem_nil
  have hclosed {s t : String} (hst : g.RefersTo s t) : t ∈ g.symbols := by
    by_contra ht
    exact h.unknown.none (s, t) ⟨hst, ht⟩
  refine ⟨hdistinct, hroot, ?_, ?_, ?_, h.unboundedRecursion.none⟩
  · intro r hr s hmentions
    exact hclosed ⟨r, (find?_eq_some_iff hdistinct).mpr ⟨hr, rfl⟩, hmentions⟩
  · intro s hs
    by_contra hreached
    exact h.unreachable.none s ⟨hroot, hs, hreached⟩
  · intro s hs
    by_contra hproductive
    refine h.nonTerminating.none s ⟨hs, hproductive, ?_⟩
    rintro ⟨⟨t, hst⟩, hunknown⟩
    exact hunknown t hst (hclosed hst)

/-- **Validation.** A root and a list of productions are accepted just if they are a
valid grammar, and then they are the grammar. If they are not accepted, every kind of
violation is reported once at most, just if something offends, and with all that does. -/
theorem build_exact (root : String) (rs : List Production) :
    (∀ g, build root rs = .ok g ↔ g = ⟨root, rs⟩ ∧ g.Valid) ∧
      ∀ vs, build root rs = .error vs → Accounts ⟨root, rs⟩ vs := by
  have haccounts := violationsOf_accounts root rs
  constructor
  · intro g
    rw [build_eq_ok_iff]
    constructor
    · rintro ⟨hnone, rfl⟩
      rw [hnone] at haccounts
      have hvalid : Valid ⟨root, rs⟩ := haccounts.valid
      have hsame : ofProductions root rs = ⟨root, rs⟩ :=
        congrArg (Grammar.mk root) (firsts_eq_self hvalid.distinct)
      exact ⟨hsame, hsame ▸ hvalid⟩
    · rintro ⟨rfl, hvalid⟩
      exact ⟨hvalid.violations_eq_nil haccounts,
        congrArg (Grammar.mk root) (firsts_eq_self hvalid.distinct)⟩
  · intro vs h
    unfold build at h
    split at h
    · cases h
    · cases h
      exact haccounts

/-- The letter `x`. -/
def letter : Element := .mk (.terminal (.literal ⟨['x'], true, by simp⟩)) .once

/-- Items in a row. -/
def row : List Production :=
  [ ⟨"row", .composite ⟨⟨.sequence, [.mk (.reference "item") .zeroOrMore]⟩, none⟩, none⟩,
    ⟨"item", .composite ⟨⟨.choice, [letter]⟩, none⟩, none⟩ ]

/-- After the row come a second sort of item, a sum that begins with itself behind an item
that may be missing, and a production without an end that refers to nothing known
besides itself. -/
def faultyRow : List Production :=
  row ++
  [ ⟨"item", .terminal .endOfInput, none⟩,
    ⟨"sum", .composite ⟨⟨.choice,
      [.mk (.group .sequence [.mk (.reference "item") .optional, .mk (.reference "sum") .once])
        .once, letter]⟩, none⟩, none⟩,
    ⟨"endless", .composite ⟨⟨.sequence,
      [letter, .mk (.reference "end") .optional, .mk (.reference "endless") .once]⟩, none⟩, none⟩ ]

/-- The row alone is a valid grammar. What is added to it goes wrong in five ways. -/
theorem build_exact_row :
    Valid ⟨"row", row⟩ ∧
      build "row" faultyRow = .error [.duplicateProductions ["item"],
        .unknownReferences [("endless", "end")], .unreachableProductions ["sum", "endless"],
        .nonTerminating ["endless"], .unboundedRecursion ["sum"]] ∧
      Accounts ⟨"row", faultyRow⟩ [.duplicateProductions ["item"],
        .unknownReferences [("endless", "end")], .unreachableProductions ["sum", "endless"],
        .nonTerminating ["endless"], .unboundedRecursion ["sum"]] := by
  have hrow : build "row" row = .ok ⟨"row", row⟩ := rfl
  have hfaulty : build "row" faultyRow = .error [.duplicateProductions ["item"],
    .unknownReferences [("endless", "end")], .unreachableProductions ["sum", "endless"],
    .nonTerminating ["endless"], .unboundedRecursion ["sum"]] := rfl
  obtain ⟨-, hvalid⟩ := ((build_exact "row" row).1 _).mp hrow
  exact ⟨hvalid, hfaulty, (build_exact "row" faultyRow).2 _ hfaulty⟩

end ConcreteSyntax.Grammar
