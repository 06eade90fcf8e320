import ConcreteSyntax.Proofs.Grammar.Validity

/-!
# Recursion that bottoms out

A production may be unable to succeed for two reasons: its recursion never bottoms out, or
what it needs is not defined. They are told apart by supposing that whatever is undefined
can succeed: a production that then can is *grounded*. The others are just those that lie
in a set of productions none of which can do without another of the set.

A production that is not grounded is always reported as one that never terminates. The
report says so as well of productions that are grounded and lack nothing but an undefined
symbol, if they refer to anything that is defined, so it is precise only where there are
none of these.
-/

namespace ConcreteSyntax

/-! ## What a rule needs -/

/-- The groups of the kind are such as can be built. -/
inductive Kind.Built : Kind → Prop where
  | reference (symbol : String) : Kind.Built (.reference symbol)
  | terminal (rule : Terminal) : Kind.Built (.terminal rule)
  | group {aggregation : Aggregation} {elements : List Element}
      (accepted : Group.build aggregation elements = .ok ⟨aggregation, elements⟩)
      (inner : ∀ e ∈ elements, Kind.Built e.kind) : Kind.Built (.group aggregation elements)

def Rule.Built : Rule → Prop
  | .terminal _ => True
  | .composite r => r.group.toKind.Built

section

variable {known known' : String → Prop}

/-- Only of symbols that stand in it does it matter to a kind what they can do. -/
theorem Kind.Productive.mono_mentioned :
    (∀ k : Kind, (∀ s, k.Mentions s → known s → known' s) → k.Productive known →
        k.Productive known') ∧
      ∀ e : Element, (∀ s, e.kind.Mentions s → known s → known' s) → e.Productive known →
        e.Productive known' := by
  apply Kind.induction
  · rintro symbol h ⟨hsymbol⟩
    exact .reference (h symbol .reference hsymbol)
  · rintro rule - -
    exact .terminal rule
  · intro aggregation elements ih h hk
    have hmember (e : Element) (he : e ∈ elements) : e.Productive known → e.Productive known' :=
      ih e he fun s hs => h s (.group he hs)
    cases hk with
    | sequence all => exact .sequence fun e he => hmember e he (all e he)
    | choice member one => exact .choice member (hmember _ member one)
    | set among each enough =>
        exact .set among (fun e he => hmember e (among.subset he) (each e he)) enough
  · rintro kind c ih h (hnone | honce)
    · exact .optional hnone
    · exact .occurs (ih h honce)

theorem Rule.Productive.mono_mentioned {r : Rule} (h : ∀ s, r.Mentions s → known s → known' s)
    (hr : r.Productive known) : r.Productive known' := by
  cases r with
  | terminal rule => trivial
  | composite r => exact Kind.Productive.mono_mentioned.1 _ h hr

/-- A kind that can be built can succeed as soon as everything in it can. -/
theorem Kind.Built.productive :
    (∀ k : Kind, k.Built → (∀ s, k.Mentions s → known s) → k.Productive known) ∧
      ∀ e : Element, e.kind.Built → (∀ s, e.kind.Mentions s → known s) →
        e.Productive known := by
  apply Kind.induction
  · intro symbol _ h
    exact .reference (h symbol .reference)
  · intro rule _ _
    exact .terminal rule
  · rintro aggregation elements ih (_ | _ | ⟨accepted, inner⟩) h
    have hall : ∀ e ∈ elements, e.Productive known := fun e he =>
      ih e he (inner e he) fun s hs => h s (.group he hs)
    cases aggregation with
    | sequence => exact .sequence hall
    | choice =>
        obtain ⟨e, he⟩ := List.exists_mem_of_ne_nil _ (Group.ne_nil_of_build accepted)
        exact .choice he (hall e he)
    | set minimum => exact .set (List.Sublist.refl _) hall (Group.build_set accepted).2
  · intro kind c ih hbuilt h
    exact .occurs (ih hbuilt h)

theorem Rule.Built.productive {r : Rule} (hr : r.Built) (h : ∀ s, r.Mentions s → known s) :
    r.Productive known := by
  cases r with
  | terminal rule => trivial
  | composite r => exact Kind.Built.productive.1 _ hr h

end

namespace Grammar

/-- The symbols of productions that can succeed if whatever is undefined can: their own
recursion bottoms out. -/
def Grounded (g : Grammar) : String → Prop :=
  g.Least fun known => Rule.Productive fun t => known t ∨ t ∉ g.symbols

/-- Some chain of references leads to one that is undefined. -/
def LeadsAstray (g : Grammar) (s : String) : Prop :=
  ∃ t u, Relation.ReflTransGen g.RefersTo s t ∧ g.RefersTo t u ∧ u ∉ g.symbols

variable {g : Grammar} {s t : String} {r : Production}

/-! ## Grounded productions -/

theorem Grounded.of_rule (hfind : g.find? s = some r)
    (hr : r.rule.Productive fun t => g.Grounded t ∨ t ∉ g.symbols) : g.Grounded s := by
  intro known hclosed
  refine hclosed s r hfind (hr.mono_mentioned fun t _ ht => ?_)
  exact ht.imp_left fun hgrounded => hgrounded known hclosed

theorem Productive.grounded (h : g.Productive s) : g.Grounded s := by
  refine h g.Grounded fun t r hfind hr => .of_rule hfind ?_
  exact hr.mono_mentioned fun u _ => Or.inl

/-- **Lacking definitions.** What is grounded can succeed, unless it leads to something that
is undefined. -/
theorem Grounded.productive (h : g.Grounded s) (hastray : ¬ g.LeadsAstray s) :
    g.Productive s := by
  refine (h (fun t => g.Productive t ∨ g.LeadsAstray t) fun t r hfind hr => ?_).resolve_right
    hastray
  by_cases hcomplete : g.LeadsAstray t
  · exact Or.inr hcomplete
  refine Or.inl (Least.closed Rule.isProductive_decides t r hfind
    (hr.mono_mentioned fun u hmentions hu => ?_))
  have hrefers : g.RefersTo t u := ⟨r, hfind, hmentions⟩
  rcases hu with (hproductive | ⟨v, w, hchain, hvw, hw⟩) | hundefined
  · exact hproductive
  · exact absurd ⟨v, w, .head hrefers hchain, hvw, hw⟩ hcomplete
  · exact absurd ⟨t, u, .refl, hrefers, hundefined⟩ hcomplete

/-- **Recursion.** What is not grounded lies in a set of productions none of which can
succeed without another of the set. -/
theorem not_grounded_iff (hs : s ∈ g.symbols) :
    ¬ g.Grounded s ↔ ∃ stuck : String → Prop, stuck s ∧ ∀ t, stuck t →
      ∃ r, g.find? t = some r ∧ ¬ r.rule.Productive fun u => ¬ stuck u := by
  constructor
  · intro h
    refine ⟨fun t => t ∈ g.symbols ∧ ¬ g.Grounded t, ⟨hs, h⟩, ?_⟩
    rintro t ⟨ht, hungrounded⟩
    obtain ⟨r, hfind⟩ := Option.isSome_iff_exists.mp (g.defines_iff.mpr ht)
    refine ⟨r, hfind, fun hr => hungrounded (.of_rule hfind (hr.mono_mentioned ?_))⟩
    intro u _ hu
    by_cases hdefined : u ∈ g.symbols
    · exact Or.inl (not_not.mp fun hgrounded => hu ⟨hdefined, hgrounded⟩)
    · exact Or.inr hdefined
  · rintro ⟨stuck, hstuck, hall⟩ h
    refine h (fun t => ¬ stuck t) (fun t r hfind hr ht => ?_) hstuck
    obtain ⟨r', hfind', hr'⟩ := hall t ht
    obtain rfl := Option.some.inj (hfind.symm.trans hfind')
    refine hr' (hr.mono_mentioned fun u _ hu => hu.elim id fun hundefined hstuck => ?_)
    -- what is stuck is defined
    obtain ⟨r'', hfind'', -⟩ := hall u hstuck
    exact hundefined (g.defines_iff.mp (Option.isSome_of_eq_some hfind''))

/-- What is not grounded refers to something defined: without that it could succeed. -/
theorem refersTo_of_not_grounded (hfind : g.find? s = some r) (hr : r.rule.Built)
    (h : ¬ g.Grounded s) : ∃ t ∈ g.symbols, g.RefersTo s t := by
  by_contra hnone
  refine h (.of_rule hfind (hr.productive fun t hmentions => Or.inr fun ht => ?_))
  exact hnone ⟨t, ht, r, hfind, hmentions⟩

/-! ## Reports -/

/-- Only one thing can offend where a kind of violation is reported in full. -/
theorem Reports.congr_iff {α : Type} {vs : List Violation} {kind : List α → Violation}
    {offends offends' : α → Prop} (h : Reports vs kind offends) :
    Reports vs kind offends' ↔ ∀ x, offends x ↔ offends' x := by
  constructor
  · intro h' x
    by_cases hreported : ∃ xs, kind xs ∈ vs
    · obtain ⟨xs, hxs⟩ := hreported
      rw [← (h.exact xs hxs).2, (h'.exact xs hxs).2]
    · have hnone := mt h.present.mpr hreported
      have hnone' := mt h'.present.mpr hreported
      exact iff_of_false (fun hx => hnone ⟨x, hx⟩) fun hx => hnone' ⟨x, hx⟩
  · intro hsame
    obtain rfl : offends = offends' := funext fun x => propext (hsame x)
    exact h

theorem not_productive_and_not_dangling_iff (hfind : g.find? s = some r) (hr : r.rule.Built) :
    ¬ g.Productive s ∧ ¬ g.Dangling s ↔
      ¬ g.Grounded s ∨ ¬ g.Productive s ∧ ∃ t ∈ g.symbols, g.RefersTo s t := by
  constructor
  · rintro ⟨hproductive, hdangling⟩
    by_cases hgrounded : g.Grounded s
    · refine Or.inr ⟨hproductive, ?_⟩
      by_contra hnone
      have hundefined (t : String) (hrefers : g.RefersTo s t) : t ∉ g.symbols := fun ht =>
        hnone ⟨t, ht, hrefers⟩
      have hreferences : ¬ ∃ t, g.RefersTo s t := fun hrefers => hdangling ⟨hrefers, hundefined⟩
      refine hproductive (Least.closed Rule.isProductive_decides s r hfind (hr.productive ?_))
      exact fun t hmentions => absurd ⟨t, r, hfind, hmentions⟩ hreferences
    · exact Or.inl hgrounded
  · rintro (hgrounded | ⟨hproductive, t, ht, hrefers⟩)
    · obtain ⟨t, ht, hrefers⟩ := refersTo_of_not_grounded hfind hr hgrounded
      exact ⟨fun h => hgrounded h.grounded, fun h => h.2 t hrefers ht⟩
    · exact ⟨hproductive, fun h => h.2 t hrefers ht⟩

/-- What is grounded offends only if it cannot succeed and refers to anything defined. -/
theorem precise_iff {defined grounded productive refers : Prop} (h : productive → grounded) :
    (defined ∧ (¬ grounded ∨ ¬ productive ∧ refers) ↔ defined ∧ ¬ grounded) ↔
      (defined → grounded → refers → productive) := by
  tauto

/-- **Never terminating.** Let the groups of all rules be such as can be built, and let
symbols given twice stand for their first productions. The productions reported never to
terminate are those whose recursion does not bottom out, whatever may be undefined, and
besides these the ones that cannot succeed and refer to anything defined. So the report is
precise just if what is grounded and refers to anything defined can succeed. A production
that is grounded and cannot succeed lacks a definition: some reference to which it leads is
reported as unknown. -/
theorem non_terminating_reported (g : Grammar) (hbuilt : ∀ r ∈ g.productions, r.rule.Built) :
    Reports (violationsOf g.root g.productions) .nonTerminating (fun s => s ∈ g.symbols ∧
        (¬ g.Grounded s ∨ ¬ g.Productive s ∧ ∃ t ∈ g.symbols, g.RefersTo s t)) ∧
      (Reports (violationsOf g.root g.productions) .nonTerminating
          (fun s => s ∈ g.symbols ∧ ¬ g.Grounded s) ↔
        ∀ s ∈ g.symbols, g.Grounded s → (∃ t ∈ g.symbols, g.RefersTo s t) → g.Productive s) ∧
      (∀ s ∈ g.symbols, ¬ g.Grounded s ↔ ∃ stuck : String → Prop, stuck s ∧ ∀ t, stuck t →
        ∃ r, g.find? t = some r ∧ ¬ r.rule.Productive fun u => ¬ stuck u) ∧
      ∀ s ∈ g.symbols, g.Grounded s → ¬ g.Productive s →
        ∃ t u references, Relation.ReflTransGen g.RefersTo s t ∧
          .unknownReferences references ∈ violationsOf g.root g.productions ∧
          (t, u) ∈ references := by
  have haccounts : g.Accounts (violationsOf g.root g.productions) := violationsOf_accounts _ _
  have hoffends (s : String) (hs : s ∈ g.symbols) :
      ¬ g.Productive s ∧ ¬ g.Dangling s ↔
        ¬ g.Grounded s ∨ ¬ g.Productive s ∧ ∃ t ∈ g.symbols, g.RefersTo s t := by
    obtain ⟨r, hfind⟩ := Option.isSome_iff_exists.mp (g.defines_iff.mpr hs)
    exact not_productive_and_not_dangling_iff hfind (hbuilt r (List.mem_of_find?_eq_some hfind))
  have hreports := haccounts.nonTerminating.congr_iff.mpr fun s => and_congr_right (hoffends s)
  refine ⟨hreports, ?_, fun s hs => not_grounded_iff hs, ?_⟩
  · rw [hreports.congr_iff]
    exact forall_congr' fun s => precise_iff Productive.grounded
  · intro s _ hgrounded hproductive
    have hastray : g.LeadsAstray s :=
      not_not.mp fun hastray => hproductive (hgrounded.productive hastray)
    obtain ⟨t, u, hchain, hrefers, hundefined⟩ := hastray
    obtain ⟨references, hreported⟩ :=
      haccounts.unknown.present.mpr ⟨(t, u), hrefers, hundefined⟩
    exact ⟨t, u, references, hchain, hreported,
      ((haccounts.unknown.exact _ hreported).2 (t, u)).mpr ⟨hrefers, hundefined⟩⟩

/-- A table of rows, each of which is an item and a separator that was forgotten. -/
def unseparated : Grammar :=
  ⟨"table",
    [ ⟨"table", .composite ⟨⟨.sequence, [.mk (.reference "row") .once]⟩, none⟩, none⟩,
      ⟨"row", .composite ⟨⟨.sequence,
        [.mk (.reference "item") .once, .mk (.reference "separator") .once]⟩, none⟩, none⟩,
      ⟨"item", .composite ⟨⟨.choice, [letter]⟩, none⟩, none⟩ ]⟩

theorem unseparated_built : ∀ r ∈ unseparated.productions, r.rule.Built := by
  have hgroup {aggregation : Aggregation} {elements : List Element}
      (accepted : Group.build aggregation elements = .ok ⟨aggregation, elements⟩)
      (inner : ∀ e ∈ elements, (∃ s, e.kind = .reference s) ∨ ∃ t, e.kind = .terminal t) :
      (Kind.group aggregation elements).Built := by
    refine .group accepted fun e he => ?_
    rcases inner e he with ⟨s, hs⟩ | ⟨t, ht⟩
    · exact hs ▸ .reference s
    · exact ht ▸ .terminal t
  intro r hr
  simp only [unseparated, List.mem_cons, List.not_mem_nil, or_false] at hr
  rcases hr with rfl | rfl | rfl <;>
    exact hgroup rfl (by simp [Element.kind, letter])

/-- The separator is all that the rows lack. -/
theorem unseparated_grounded : unseparated.Grounded "row" ∧ unseparated.Grounded "table" := by
  have hitem : unseparated.Grounded "item" :=
    .of_rule (r := unseparated.productions[2]) rfl
      (.choice (List.mem_singleton_self _) (.occurs (.terminal _)))
  have hrow : unseparated.Grounded "row" := by
    refine .of_rule (r := unseparated.productions[1]) rfl (.sequence ?_)
    rintro e (_ | ⟨_, _ | ⟨_, ⟨⟩⟩⟩)
    · exact .occurs (.reference (Or.inl hitem))
    · exact .occurs (.reference (Or.inr (by decide)))
  refine ⟨hrow, .of_rule (r := unseparated.productions[0]) rfl (.sequence ?_)⟩
  rintro e (_ | ⟨_, ⟨⟩⟩)
  exact .occurs (.reference (Or.inl hrow))

/-- Both are reported as never terminating for all that. -/
theorem lacking_reported_as_non_terminating :
    violationsOf unseparated.root unseparated.productions =
        [.unknownReferences [("row", "separator")], .nonTerminating ["table", "row"]] ∧
      unseparated.Grounded "row" ∧ unseparated.Grounded "table" ∧
      ¬ Reports (violationsOf unseparated.root unseparated.productions) .nonTerminating
        fun s => s ∈ unseparated.symbols ∧ ¬ unseparated.Grounded s := by
  have hviolations : violationsOf unseparated.root unseparated.productions =
      [.unknownReferences [("row", "separator")], .nonTerminating ["table", "row"]] := by decide
  obtain ⟨hrow, htable⟩ := unseparated_grounded
  refine ⟨hviolations, hrow, htable, fun h => ?_⟩
  have hlisted := (h.exact ["table", "row"] (by simp [hviolations])).2 "row"
  exact (hlisted.mp (by simp)).2 hrow

/-- What the table lacks is reported of its rows. -/
theorem non_terminating_reported_unseparated :
    (∀ r ∈ unseparated.productions, r.rule.Built) ∧ "table" ∈ unseparated.symbols ∧
      unseparated.Grounded "table" ∧ ¬ unseparated.Productive "table" ∧
      ∃ t u references, Relation.ReflTransGen unseparated.RefersTo "table" t ∧
        .unknownReferences references ∈
          violationsOf unseparated.root unseparated.productions ∧ (t, u) ∈ references := by
  have hdistinct : unseparated.symbols.Nodup := by decide
  have hproductive : ¬ unseparated.Productive "table" := by
    rw [← mem_productive_iff hdistinct]
    decide
  have hdefined : "table" ∈ unseparated.symbols := by decide
  have hgrounded := unseparated_grounded.2
  exact ⟨unseparated_built, hdefined, hgrounded, hproductive,
    (non_terminating_reported unseparated unseparated_built).2.2.2 "table" hdefined hgrounded
      hproductive⟩

end Grammar

end ConcreteSyntax
