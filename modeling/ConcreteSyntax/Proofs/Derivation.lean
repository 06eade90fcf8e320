import ConcreteSyntax.Proofs.Termination
import Mathlib.Data.List.Perm.Basic

/-!
# Derivations

What it means for nodes to come of a rule between two positions of an input is
said without recognizers: there is no search, no failure and no bound, and
occurrences simply follow one another. All that is recognized is derived in this
sense, whatever was tried and given up on the way.
-/

namespace ConcreteSyntax

/-- Parts that follow one another from a position to the last one's end, with the
nodes of all; `step` relates the two ends of each. -/
inductive Consecutive {α : Type} (step : Nat → Nat → Prop)
    (derives : α → List Node → Nat → Nat → Prop) : List α → List Node → Nat → Nat → Prop where
  | nil (p : Nat) : Consecutive step derives [] [] p p
  | cons {a : α} {rest : List α} {ns ms : List Node} {p m q : Nat} (first : derives a ns p m)
      (ends : step p m) (others : Consecutive step derives rest ms m q) :
      Consecutive step derives (a :: rest) (ns ++ ms) p q

mutual

/-- The node comes of the production: it is named after it, comes of its rule, and
no validator refuses it. -/
inductive Production.Derives (l : Language) (src : Source) :
    Production → Node → Nat → Nat → Prop where
  | named {r : Production} {n : Node} {p q : Nat} (rule : Rule.Derives l src r.rule r.symbol n p q)
      (admitted : Production.Admits (r.validator <|> l.validators r.symbol) src n) :
      Production.Derives l src r n p q

/-- The node with this name comes of the rule. -/
inductive Rule.Derives (l : Language) (src : Source) :
    Rule → String → Node → Nat → Nat → Prop where
  | atom {t : Terminal} {name : String} {seg : Segment} {p q : Nat}
      (reads : t.Reads src p seg q) : Rule.Derives l src (.terminal t) name (.atom name seg) p q
  | composite {r : Composite} {name : String} {ns : List Node} {p q : Nat}
      (group : Aggregation.Derives l src r.group.aggregation r.group.elements ns p q) :
      Rule.Derives l src (.composite r) name (.composite name ⟨p, q - p⟩ ns) p q

/-- The nodes come of a group of these elements. -/
inductive Aggregation.Derives (l : Language) (src : Source) :
    Aggregation → List Element → List Node → Nat → Nat → Prop where
  | sequence {es : List Element} {ns : List Node} {p q : Nat}
      (all : Consecutive (· ≤ ·) (Element.Derives l src) es ns p q) :
      Aggregation.Derives l src .sequence es ns p q
  | choice {es : List Element} {e : Element} {ns : List Node} {p q : Nat} (alternative : e ∈ es)
      (one : Element.Derives l src e ns p q) : Aggregation.Derives l src .choice es ns p q
  /-- Each element is taken once or left out. -/
  | set {minimum : Option Nat} {es taken untaken : List Element} {ns : List Node} {p q : Nat}
      (split : (taken ++ untaken).Perm es)
      (some : Consecutive (· < ·) (Element.Derives l src) taken ns p q)
      (enough : Group.requirement minimum es.length ≤
        taken.length + (untaken.filter Element.isOptional).length) :
      Aggregation.Derives l src (.set minimum) es ns p q

/-- The nodes come of occurrences of the element's kind. -/
inductive Element.Derives (l : Language) (src : Source) :
    Element → List Node → Nat → Nat → Prop where
  | counted {k : Kind} {c : Cardinality} {n : Nat} {ns : List Node} {p q : Nat}
      (occurrences : Consecutive (· ≤ ·) (Kind.Derives l src) (List.replicate n k) ns p q)
      (min_le : c.min ≤ n) (le_max : ∀ m ∈ c.max, n ≤ m) :
      Element.Derives l src (.mk k c) ns p q
  /-- Behind an occurrence that reads nothing none is missed. -/
  | idle {k : Kind} {c : Cardinality} {n : Nat} {ns ms : List Node} {p q : Nat}
      (occurrences : Consecutive (· ≤ ·) (Kind.Derives l src) (List.replicate n k) ns p q)
      (last : Kind.Derives l src k ms q q) (le_max : ∀ m ∈ c.max, n + 1 ≤ m) :
      Element.Derives l src (.mk k c) (ns ++ ms) p q

/-- The nodes come of one occurrence of the kind. -/
inductive Kind.Derives (l : Language) (src : Source) : Kind → List Node → Nat → Nat → Prop where
  | reference {symbol : String} {r : Production} {n : Node} {p q : Nat}
      (found : l.grammar.find? symbol = some r) (named : Production.Derives l src r n p q) :
      Kind.Derives l src (.reference symbol) [n] p q
  | terminal {t : Terminal} {seg : Segment} {p q : Nat} (reads : t.Reads src p seg q) :
      Kind.Derives l src (.terminal t) [.atom t.inlineSymbol seg] p q
  | group {a : Aggregation} {es : List Element} {ns : List Node} {p q : Nat}
      (inner : Aggregation.Derives l src a es ns p q) : Kind.Derives l src (.group a es) ns p q

end

/-- A derived node is named as it should be. -/
theorem Rule.Derives.symbol_eq {l : Language} {src : Source} {r : Rule} {name : String} {n : Node}
    {p q : Nat} (h : r.Derives l src name n p q) : n.symbol = name := by
  cases h <;> rfl

theorem Production.Derives.symbol_eq {l : Language} {src : Source} {r : Production} {n : Node}
    {p q : Nat} (h : r.Derives l src n p q) : n.symbol = r.symbol := by
  cases h with
  | named rule _ => exact rule.symbol_eq

/-! ## Groups and repetitions -/

section

variable {α : Type} {derives : α → List Node → Nat → Nat → Prop} {src : Source} {path : Path}
variable {read : α → ForestRecognizer}

/-- Recognizers that succeed in turn yield what comes of parts in a row. -/
theorem InTurn.consecutive : ∀ {as : List α} {p q : Nat} {ns : List Node},
    (∀ a ∈ as, ForestRecognizer.Orderly src (read a)) →
    (∀ a ∈ as, ∀ p q f, p ≤ src.size → read a path p = .success f q → derives a f.nodes p q) →
    p ≤ src.size → InTurn path (as.map read) p ns q → Consecutive (· ≤ ·) derives as ns p q
  | [], _, _, _, _, _, _, h => by
      cases h
      exact .nil _
  | a :: rest, p, q, _, horderly, hread, hp, h => by
      obtain ⟨ha, hrest⟩ := List.forall_mem_cons.mp horderly
      obtain ⟨hreadA, hreadRest⟩ := List.forall_mem_cons.mp hread
      rw [List.map_cons] at h
      cases h with
      | @cons _ _ _ m _ f ns first others =>
          obtain ⟨hpm, hm, -⟩ := (ha path p hp).advances f m first
          have hfirst := hreadA p m f hp first
          have hothers := InTurn.consecutive hrest hreadRest hm others
          exact .cons hfirst hpm hothers

/-- Members taken in an order yield what comes of parts in this order, each of
which reads something. -/
theorem Taken.consecutive {member : α → Member} : ∀ {as : List α} {p q : Nat} {ns : List Node},
    (∀ a ∈ as, ForestRecognizer.Orderly src (member a).recognizer) →
    (∀ a ∈ as, ∀ p q f, p ≤ src.size → (member a).recognizer path p = .success f q →
      derives a f.nodes p q) →
    p ≤ src.size → Taken path (as.map member) p ns q → Consecutive (· < ·) derives as ns p q
  | [], _, _, _, _, _, _, h => by
      cases h
      exact .nil _
  | a :: rest, p, q, _, horderly, hread, hp, h => by
      obtain ⟨ha, hrest⟩ := List.forall_mem_cons.mp horderly
      obtain ⟨hreadA, hreadRest⟩ := List.forall_mem_cons.mp hread
      rw [List.map_cons] at h
      cases h with
      | @cons _ _ _ m _ f ns first reads others =>
          obtain ⟨-, hm, -⟩ := (ha path p hp).advances f m first
          have hfirst := hreadA p m f hp first
          have hothers := Taken.consecutive hrest hreadRest hm others
          exact .cons hfirst reads hothers

/-- What a list of images is rearranged to are the images of a rearranged list. -/
theorem eq_map_of_perm_map {β : Type} {f : α → β} {bs : List β} {as : List α}
    (h : bs.Perm (as.map f)) : ∃ as' : List α, bs = as'.map f ∧ as'.Perm as :=
  Eq.mpr (congrFun (congrFun (List.eq_map_comp_perm f) bs) as) h

/-- A run of occurrences yields what comes of as many in a row; if it ended with
one that read nothing, that is the last of them. -/
theorem Cardinality.Repeats.consecutive {c : Cardinality} {r : ForestRecognizer} {a : α}
    {done p q : Nat} {run : Run} (h : c.Repeats (fun _ => r path) done p run q)
    (horderly : ForestRecognizer.Orderly src r)
    (hread : ∀ p q f, p ≤ src.size → r path p = .success f q → derives a f.nodes p q)
    (hp : p ≤ src.size) :
    (∃ n, run.occurrences = done + n ∧
        Consecutive (· ≤ ·) derives (List.replicate n a) run.nodes p q) ∧
      (run.ending = .idle → ∃ n ns ms, run.occurrences = done + n + 1 ∧ run.nodes = ns ++ ms ∧
        Consecutive (· ≤ ·) derives (List.replicate n a) ns p q ∧ derives a ms q q) := by
  induction h with
  | full _ => exact ⟨⟨0, rfl, .nil _⟩, by simp⟩
  | @idle done p f _ step =>
      have hderives := hread _ _ f hp step
      constructor
      · have hone := Consecutive.cons hderives (Nat.le_refl p) (.nil p)
        rw [List.append_nil] at hone
        exact ⟨1, rfl, hone⟩
      · intro _
        exact ⟨0, [], f.nodes, rfl, rfl, .nil _, hderives⟩
  | @more done p m q f run _ step _ _ ih =>
      obtain ⟨hpm, hm, -⟩ := (horderly path p hp).advances f m step
      have hderives := hread p m f hp step
      obtain ⟨⟨n, hn, hrest⟩, hidle⟩ := ih hm
      constructor
      · refine ⟨n + 1, ?_, .cons hderives hpm hrest⟩
        rw [Run.after_occurrences, hn]
        omega
      · -- the last occurrence is that of the run behind this one
        intro hend
        obtain ⟨n, ns, ms, hn, hnodes, hrest, hlast⟩ := hidle hend
        refine ⟨n + 1, f.nodes ++ ns, ms, ?_, ?_, .cons hderives hpm hrest, hlast⟩
        · rw [Run.after_occurrences, hn]
          omega
        · rw [Run.after_nodes, hnodes, List.append_assoc]
  | @stopped done p m d _ step =>
      obtain rfl := (horderly path p hp).returns d m step
      exact ⟨⟨0, rfl, .nil _⟩, by simp⟩

end

/-! ## Rules -/

section

variable {l : Language} {scope : Scope} {p q : Nat} {path : Path}
variable (horderly : ∀ symbol, NodeRecognizer.Orderly scope.source (scope.production symbol))
variable (hproduction : ∀ path p q n, p ≤ scope.source.size →
  scope.production path.symbol path p = .success n q →
    ∃ r, l.grammar.find? path.symbol = some r ∧ r.Derives l scope.source n p q)

include horderly hproduction

/-- **Elements.** All that a kind or an element recognizes is derived. -/
theorem Kind.derives_of_recognizer :
    (∀ k : Kind, ∀ path p q f, p ≤ scope.source.size → k.recognizer scope path p = .success f q →
        k.Derives l scope.source f.nodes p q) ∧
      ∀ e : Element, ∀ path p q f, p ≤ scope.source.size →
        e.recognizer scope path p = .success f q → e.Derives l scope.source f.nodes p q := by
  obtain ⟨hkinds, helements⟩ := Kind.recognizer_orderly horderly
  apply Kind.induction
  · intro symbol path p q f hp h
    rw [Kind.recognizer, Reply.toForest_eq_success_iff] at h
    obtain ⟨n, hrun, rfl⟩ := h
    obtain ⟨r, hfound, hderives⟩ := hproduction (path.child symbol) p q n hp hrun
    exact .reference hfound hderives
  · intro rule path p q f hp h
    rw [Kind.recognizer, Reply.toForest_eq_success_iff] at h
    obtain ⟨n, hrun, rfl⟩ := h
    obtain ⟨seg, hreads, rfl⟩ := Terminal.recognize_success hp hrun
    exact .terminal hreads
  · intro aggregation elements ih path p q f hp h
    have ih : ∀ e ∈ elements, ∀ p q f, p ≤ scope.source.size →
        e.recognizer scope path p = .success f q → e.Derives l scope.source f.nodes p q :=
      fun e he => ih e he path
    refine .group ?_
    rw [Kind.recognizer] at h
    cases aggregation with
    | sequence =>
        simp only [Aggregation.recognizer, Element.map_recognizer_members] at h
        exact .sequence (InTurn.consecutive (fun e _ => helements e) ih hp (sequence_success h))
    | choice =>
        have horder : ∀ r ∈ elements.map (Element.recognizer scope),
            ForestRecognizer.Orderly scope.source r :=
          List.forall_mem_map.mpr fun e _ => helements e
        simp only [Aggregation.recognizer, Element.map_recognizer_members] at h
        obtain ⟨r, hr, hrun⟩ := choice_success horder hp h
        obtain ⟨e, he, rfl⟩ := List.mem_map.mp hr
        exact .choice he (ih e he p q f hp hrun)
    | set minimum =>
        have hmembers := members_orderly fun e (_ : e ∈ elements) => helements e
        obtain ⟨order, rest, hperm, htaken, henough⟩ := anyOrder_success hmembers hp h
        rw [Element.members_eq_map] at hperm henough
        -- the members taken and left out belong to elements
        obtain ⟨es, hes, hsplit⟩ := eq_map_of_perm_map hperm
        obtain ⟨taken, untaken, rfl, rfl, rfl⟩ := List.map_eq_append_iff.mp hes.symm
        rw [List.length_map, List.length_map, List.filter_map, List.length_map] at henough
        have htakenOf : ∀ e ∈ taken, e ∈ elements :=
          fun e he => hsplit.subset (List.mem_append_left _ he)
        exact .set hsplit (Taken.consecutive (fun e _ => helements e)
          (fun e he => ih e (htakenOf e he)) hp htaken) henough
  · intro kind cardinality ih path p q f hp h
    rw [Element.recognizer_mk] at h
    obtain ⟨run, hrun, hsuffices, rfl⟩ := Cardinality.repeating_success h
    have hmax := hrun.le_max fun m _ => Nat.zero_le m
    obtain ⟨⟨n, hn, hall⟩, hidle⟩ := hrun.consecutive (hkinds kind) (ih path) hp
    rw [Nat.zero_add] at hn
    rcases hsuffices.1 with hend | hmin
    · obtain ⟨n, ns, ms, hn, hnodes, hbefore, hlast⟩ := hidle hend
      simp only [Cardinality.forestOf, hnodes]
      exact .idle hbefore hlast (by rw [hn, Nat.zero_add] at hmax; exact hmax)
    · exact .counted hall (by omega) (by rw [hn] at hmax; exact hmax)

theorem Rule.derives_of_recognizer {n : Node} (r : Rule) (hp : p ≤ scope.source.size)
    (h : r.recognizer scope path p = .success n q) :
    r.Derives l scope.source path.symbol n p q := by
  cases r with
  | terminal rule =>
      obtain ⟨seg, hreads, rfl⟩ := Terminal.recognize_success hp h
      exact .atom hreads
  | composite r =>
      rw [Rule.recognizer] at h
      obtain ⟨f, hrun, rfl⟩ :=
        Composite.recognizer_success (r.group.recognizer_orderly horderly) hp h
      rw [← Group.recognizer_toKind] at hrun
      have hgroup : Kind.Derives l scope.source (.group r.group.aggregation r.group.elements)
          f.nodes p q := (Kind.derives_of_recognizer horderly hproduction).1 _ path p q f hp hrun
      cases hgroup with
      | group inner => exact .composite inner

theorem Production.derives_of_recognizer {n : Node} (r : Production) (hname : path.symbol = r.symbol)
    (hp : p ≤ scope.source.size)
    (h : r.recognizer (l.validators r.symbol) scope path p = .success n q) :
    r.Derives l scope.source n p q := by
  obtain ⟨hrule, hadmits⟩ :=
    Production.recognizer_success (r.rule.recognizer_orderly horderly) hp h
  have hderives := r.rule.derives_of_recognizer horderly hproduction hp hrule
  rw [hname] at hderives
  exact .named hderives hadmits

end

/-! ## Languages -/

theorem Language.derives_of_scope (l : Language) (src : Source) (n : Nat) : ∀ path p q node,
    p ≤ (l.scope src n).source.size →
    (l.scope src n).production path.symbol path p = .success node q →
      ∃ r, l.grammar.find? path.symbol = some r ∧ r.Derives l (l.scope src n).source node p q := by
  induction n with
  | zero =>
      intro path p q node _ h
      cases h
  | succ n ih =>
      intro path p q node hp h
      rw [scope_source] at hp ⊢
      obtain ⟨r, hfound, hrule, hadmits⟩ := scope_success hp h
      have hsymbol : r.symbol = path.symbol := Grammar.symbol_of_find? hfound
      have hderives := r.rule.derives_of_recognizer (l.scope_orderly src n) ih
        (by simpa using hp) hrule
      rw [scope_source] at hderives
      rw [← hsymbol] at hderives hadmits
      exact ⟨r, hfound, .named hderives hadmits⟩

/-- **Soundness.** Whatever the language and the input, a node that a production
recognizes from one position to another is derived between them. -/
theorem recognition_derives (l : Language) (src : Source) {p q : Nat} {node : Node}
    (hp : p ≤ src.size) :
    (∀ symbol, l.recognizeAt src symbol p = .success node q →
      ∃ r, l.grammar.find? symbol = some r ∧ node.symbol = symbol ∧ r.Derives l src node p q) ∧
    (∀ symbol path, l.recognizeBelow src symbol path p = .success node q →
      ∃ r, l.grammar.find? symbol = some r ∧ node.symbol = symbol ∧ r.Derives l src node p q) ∧
    ∀ (r : Production) (path : Path), path.symbol = r.symbol →
      r.recognizer (l.validators r.symbol) (l.fullScope src) path p = .success node q →
        node.symbol = r.symbol ∧ r.Derives l src node p q := by
  have horderly := l.scope_orderly src (l.stage src)
  have hscope := l.derives_of_scope src (l.stage src)
  have hsource : (l.fullScope src).source = src := l.scope_source src _
  have hp' : p ≤ (l.fullScope src).source.size := by rw [hsource]; exact hp
  have production (path : Path)
      (h : (l.fullScope src).production path.symbol path p = .success node q) :
      ∃ r, l.grammar.find? path.symbol = some r ∧ node.symbol = path.symbol ∧
        r.Derives l src node p q := by
    obtain ⟨r, hfound, hderives⟩ := hscope path p q node hp' h
    have hsymbol : r.symbol = path.symbol := by simpa using List.find?_some hfound
    exact ⟨r, hfound, hderives.symbol_eq.trans hsymbol, hsource ▸ hderives⟩
  refine ⟨fun symbol => production (.root symbol), fun symbol path => production (path.child symbol),
    fun r path hname h => ?_⟩
  have hderives := r.derives_of_recognizer horderly hscope hname hp' h
  exact ⟨hderives.symbol_eq, hsource ▸ hderives⟩

/-- Lists in which an item has no more than three tokens. -/
def shortLists : Language :=
  listLanguage.withValidator "item" fun n _ =>
    if 3 < n.segment.count then some "too long" else none

/-- What is recognized over a list in parentheses of one letter. -/
def shortList : Node :=
  .composite "list" ⟨0, 3⟩ [.composite "item" ⟨0, 3⟩ [.atom "@Literal" ⟨0, 1⟩,
    .composite "list" ⟨1, 1⟩ [.composite "item" ⟨1, 1⟩ [.atom "@Literal" ⟨1, 1⟩]],
    .atom "@Literal" ⟨2, 1⟩]]

theorem recognition_derives_lists :
    0 ≤ (Source.ofString "(a)").size ∧
      shortLists.recognizeAt (Source.ofString "(a)") "list" 0 = .success shortList 3 ∧
      ∃ r, shortLists.grammar.find? "list" = some r ∧ shortList.symbol = "list" ∧
        r.Derives shortLists (Source.ofString "(a)") shortList 0 3 := by
  have hrun : shortLists.recognizeAt (Source.ofString "(a)") "list" 0 = .success shortList 3 := by
    rfl
  exact ⟨by decide, hrun, (recognition_derives shortLists _ (by decide)).1 "list" hrun⟩

end ConcreteSyntax
