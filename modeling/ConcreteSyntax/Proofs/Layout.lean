import ConcreteSyntax.Proofs.Derivation
import ConcreteSyntax.Proofs.Texts

/-!
# The layout of trees

Nodes come of one another in few ways only: an atom over what a terminal read, a composite
over nodes that were read for it, nodes behind nodes. Whatever is derived is laid out in
these ways, and all that is said of the segments of a tree follows: parents cover their
children, siblings do not overlap, and nothing lies beyond the input. Only delimited
content leaves tokens that no atom covers.
-/

namespace ConcreteSyntax

/-! ## Trees -/

namespace Node

mutual

/-- The node and all below it, a node before its children and children from left to
right. -/
def preorder : Node → List Node
  | atom symbol segment => [atom symbol segment]
  | composite symbol segment nodes => composite symbol segment nodes :: preorders nodes

def preorders : List Node → List Node
  | [] => []
  | n :: ns => n.preorder ++ preorders ns

end

/-- The atoms of a tree, from left to right. -/
def atoms (n : Node) : List Node := n.preorder.filter isAtom

theorem preorders_append (ns ms : List Node) :
    preorders (ns ++ ms) = preorders ns ++ preorders ms := by
  induction ns with
  | nil => rfl
  | cons n ns ih => rw [List.cons_append, preorders, preorders, ih, List.append_assoc]

@[simp] theorem preorders_singleton (n : Node) : preorders [n] = n.preorder := by
  rw [preorders, preorders, List.append_nil]

/-- What a tree recognized from one position to another covers: a composite all of it, an
atom some of it. -/
def Spans (n : Node) (p q : Nat) : Prop :=
  match n with
  | atom _ segment => p ≤ segment.offset ∧ segment.stop ≤ q
  | composite _ segment _ => segment.offset = p ∧ segment.stop = q

/-- The layout of a tree recognized from one position to another. -/
structure LaidOut (src : Source) (n : Node) (p q : Nat) : Prop where
  spans : n.Spans p q
  inside : ∀ m ∈ n.preorder, m.segment.stop ≤ src.size
  covers : ∀ m ∈ n.preorder, ∀ c ∈ m.children, c.Within m.segment.offset m.segment.stop
  ordered : ∀ m ∈ n.preorder, m.children.Pairwise fun c d => c.segment.stop ≤ d.segment.offset

end Node

/-- Segments that cover all from one position to another, each beginning where the one
before stops. -/
inductive Tiles : List Segment → Nat → Nat → Prop where
  | nil (p : Nat) : Tiles [] p p
  | cons {seg : Segment} {rest : List Segment} {q : Nat} (others : Tiles rest seg.stop q) :
      Tiles (seg :: rest) seg.offset q

namespace Tiles

theorem append {segs segs' : List Segment} {p m q : Nat} (h : Tiles segs p m)
    (h' : Tiles segs' m q) : Tiles (segs ++ segs') p q := by
  induction h with
  | nil p => exact h'
  | cons _ ih => exact .cons (ih h')

theorem le {segs : List Segment} {p q : Nat} (h : Tiles segs p q) : p ≤ q := by
  induction h with
  | nil p => exact Nat.le_refl p
  | @cons seg _ _ _ ih => exact Nat.le_trans (Nat.le_add_right seg.offset seg.count) ih

/-- The texts of segments that cover a part of the input make up its text. -/
theorem join_texts (text : String) {segs : List Segment} {p q : Nat} (h : Tiles segs p q) :
    String.join (segs.map (Source.ofString text).textOf) =
      (Source.ofString text).textOf ⟨p, q - p⟩ := by
  induction h with
  | nil p => simp [Source.textOf_ofString, Source.window, Segment.stop]
  | @cons seg rest q others ih =>
      have hle := others.le
      have hsplit : q - seg.offset = seg.count + (q - seg.stop) := by
        simp only [Segment.stop] at hle ⊢
        omega
      rw [List.map_cons, String.join_cons, ih, hsplit, Source.textOf_append]
      rfl

end Tiles

/-! ## Atoms and the terminals they come of -/

mutual

/-- The terminals that stand in a kind, at any depth. -/
def Kind.terminals : Kind → List Terminal
  | .reference _ => []
  | .terminal rule => [rule]
  | .group _ elements => Element.terminals elements

def Element.terminals : List Element → List Terminal
  | [] => []
  | .mk kind _ :: rest => kind.terminals ++ Element.terminals rest

end

/-- The terminals in the group of the rule, which have no symbol of their own. -/
def Composite.terminals (r : Composite) : List Terminal := r.group.toKind.terminals

/-- All terminals of the rule. -/
def Rule.terminals : Rule → List Terminal
  | .terminal rule => [rule]
  | .composite r => r.terminals

def Terminal.isDelimited : Terminal → Bool
  | .delimited _ => true
  | .literal _ | .charClass _ | .endOfInput | .pattern _ => false

theorem Element.mem_terminals {t : Terminal} {e : Element} {es : List Element} (he : e ∈ es)
    (ht : t ∈ e.kind.terminals) : t ∈ Element.terminals es := by
  induction es with
  | nil => exact absurd he List.not_mem_nil
  | cons e' rest ih =>
      obtain ⟨kind, cardinality⟩ := e'
      rw [Element.terminals, List.mem_append]
      rcases List.mem_cons.mp he with rfl | he
      · exact Or.inl ht
      · exact Or.inr (ih he)

/-- Atoms with this symbol may come of the terminal: it is the rule of the production with
the symbol, or it stands in the group of some rule and the symbol is the one for those. -/
inductive Grammar.Names (g : Grammar) (t : Terminal) : String → Prop where
  | production {symbol : String} {r : Production} (found : g.find? symbol = some r)
      (rule : r.rule = .terminal t) : Names g t symbol
  | inline {symbol : String} {r : Production} {c : Composite} (found : g.find? symbol = some r)
      (rule : r.rule = .composite c) (stands : t ∈ c.terminals) : Names g t t.inlineSymbol

/-- No atom of the tree comes of delimited content. -/
def Node.Undelimited (g : Grammar) (n : Node) : Prop :=
  ∀ a ∈ n.atoms, ∀ t, g.Names t a.symbol → t.isDelimited = false

/-- No rule of the grammar is delimited content or has any in its group. -/
def Grammar.Undelimited (g : Grammar) : Prop :=
  ∀ r ∈ g.productions, ∀ t ∈ r.rule.terminals, t.isDelimited = false

theorem Grammar.Names.mem_terminals {g : Grammar} {t : Terminal} {symbol : String}
    (h : g.Names t symbol) : ∃ r ∈ g.productions, t ∈ r.rule.terminals := by
  cases h with
  | production found rule =>
      refine ⟨_, List.mem_of_find?_eq_some found, ?_⟩
      rw [rule]
      exact List.mem_cons_self
  | inline found rule stands =>
      refine ⟨_, List.mem_of_find?_eq_some found, ?_⟩
      rw [rule]
      exact stands

/-- Where a grammar has no delimited content, no tree has any. -/
theorem Grammar.Undelimited.node {g : Grammar} (h : g.Undelimited) (n : Node) :
    n.Undelimited g := by
  intro a _ t hnames
  obtain ⟨r, hr, ht⟩ := hnames.mem_terminals
  exact h r hr t ht

/-! ## Nodes in their places -/

/-- Nodes laid out from one position to another. -/
inductive Laid (g : Grammar) (src : Source) : List Node → Nat → Nat → Prop where
  | nil (p : Nat) : Laid g src [] p p
  | append {ns ms : List Node} {p m q : Nat} (first : Laid g src ns p m)
      (behind : Laid g src ms m q) : Laid g src (ns ++ ms) p q
  | atom {t : Terminal} {name : String} {seg : Segment} {p q : Nat} (named : g.Names t name)
      (reads : t.Reads src p seg q) : Laid g src [.atom name seg] p q
  | composite {name : String} {ns : List Node} {p q : Nat} (children : Laid g src ns p q) :
      Laid g src [.composite name ⟨p, q - p⟩ ns] p q

/-- All but delimited content covers what it reads. -/
theorem Terminal.Reads.spans {src : Source} {t : Terminal} {seg : Segment} {p q : Nat}
    (h : t.Reads src p seg q) (ht : t.isDelimited = false) : seg.offset = p ∧ seg.stop = q := by
  cases h with
  | literal tokens stop =>
      refine ⟨rfl, ?_⟩
      simp only [Segment.stop]
      omega
  | charClass _ _ => exact ⟨rfl, rfl⟩
  | endOfInput _ => exact ⟨rfl, rfl⟩
  | pattern _ _ => exact ⟨rfl, rfl⟩
  | delimited _ _ _ _ => cases ht

namespace Laid

variable {g : Grammar} {src : Source} {ns : List Node} {p q : Nat}

theorem bounds (h : Laid g src ns p q) (hp : p ≤ src.size) :
    p ≤ q ∧ q ≤ src.size ∧ ∀ n ∈ ns, n.Within p q := by
  induction h with
  | nil p => exact ⟨Nat.le_refl p, hp, fun _ h => absurd h List.not_mem_nil⟩
  | append _ _ ih ih' =>
      obtain ⟨h₁, h₂, h₃⟩ := ih hp
      obtain ⟨h₄, h₅, h₆⟩ := ih' h₂
      exact ⟨Nat.le_trans h₁ h₄, h₅, within_append h₁ h₄ h₃ h₆⟩
  | atom _ reads =>
      obtain ⟨h₁, h₂, h₃⟩ := reads.bounds hp
      refine ⟨h₁, h₂, ?_⟩
      rintro n hn
      obtain rfl := List.mem_singleton.mp hn
      exact h₃
  | @composite name ns p q _ ih =>
      obtain ⟨h₁, h₂, -⟩ := ih hp
      refine ⟨h₁, h₂, ?_⟩
      intro n hn
      obtain rfl := List.mem_singleton.mp hn
      refine ⟨Nat.le_refl p, ?_⟩
      simp only [Node.segment, Segment.stop]
      omega

/-- Nodes that are read behind others do not overlap with them. -/
theorem ordered (h : Laid g src ns p q) (hp : p ≤ src.size) :
    ns.Pairwise fun c d => c.segment.stop ≤ d.segment.offset := by
  induction h with
  | nil p => exact .nil
  | append first behind ih ih' =>
      obtain ⟨-, hm, hfirst⟩ := first.bounds hp
      obtain ⟨-, -, hbehind⟩ := behind.bounds hm
      refine List.pairwise_append.mpr ⟨ih hp, ih' hm, ?_⟩
      intro c hc d hd
      exact Nat.le_trans (hfirst c hc).2 (hbehind d hd).1
  | atom _ _ => exact List.pairwise_singleton _ _
  | composite _ _ => exact List.pairwise_singleton _ _

/-- In all trees below, parents cover their children, which do not overlap. -/
theorem laidOut (h : Laid g src ns p q) (hp : p ≤ src.size) :
    ∀ m ∈ Node.preorders ns, m.segment.stop ≤ src.size ∧
      (∀ c ∈ m.children, c.Within m.segment.offset m.segment.stop) ∧
      m.children.Pairwise fun c d => c.segment.stop ≤ d.segment.offset := by
  induction h with
  | nil p =>
      intro m hm
      exact absurd hm List.not_mem_nil
  | append first _ ih ih' =>
      obtain ⟨-, hm, -⟩ := first.bounds hp
      rw [Node.preorders_append]
      exact List.forall_mem_append.mpr ⟨ih hp, ih' hm⟩
  | @atom t name seg p q _ reads =>
      obtain ⟨-, hq, -, hstop⟩ := reads.bounds hp
      rw [Node.preorders_singleton, Node.preorder, List.forall_mem_singleton]
      exact ⟨Nat.le_trans hstop hq, fun c hc => absurd hc List.not_mem_nil, .nil⟩
  | @composite name ns p q children ih =>
      obtain ⟨hpq, hq, hwithin⟩ := children.bounds hp
      have hstop : (Segment.mk p (q - p)).stop = q := by
        simp only [Segment.stop]
        omega
      rw [Node.preorders_singleton, Node.preorder, List.forall_mem_cons]
      refine ⟨⟨?_, ?_, children.ordered hp⟩, ih hp⟩
      · exact hstop.symm ▸ hq
      · intro c hc
        exact hstop.symm ▸ hwithin c hc

/-- Without delimited content atoms cover all that was read. -/
theorem tiles (h : Laid g src ns p q)
    (hplain : ∀ a ∈ (Node.preorders ns).filter Node.isAtom, ∀ t, g.Names t a.symbol →
      t.isDelimited = false) :
    Tiles (((Node.preorders ns).filter Node.isAtom).map Node.segment) p q := by
  induction h with
  | nil p => exact .nil p
  | append _ _ ih ih' =>
      rw [Node.preorders_append, List.filter_append] at hplain ⊢
      rw [List.map_append]
      exact (ih fun a ha => hplain a (List.mem_append_left _ ha)).append
        (ih' fun a ha => hplain a (List.mem_append_right _ ha))
  | @atom t name seg p q named reads =>
      have ht := hplain (.atom name seg) (by simp [Node.preorder, Node.isAtom]) t named
      obtain ⟨rfl, rfl⟩ := reads.spans ht
      rw [Node.preorders_singleton]
      exact .cons (.nil _)
  | @composite name ns p q children ih =>
      rw [Node.preorders_singleton] at hplain ⊢
      exact ih hplain

end Laid

/-! ## Derivations -/

/-- The terminals that stand in the kind stand in a rule of the grammar. -/
def Grammar.Knows (g : Grammar) (k : Kind) : Prop := ∀ t ∈ k.terminals, g.Names t t.inlineSymbol

/-- A production is found by its symbol. -/
theorem Grammar.find?_symbol {g : Grammar} {symbol : String} {r : Production}
    (h : g.find? symbol = some r) : g.find? r.symbol = some r := by
  rwa [Grammar.symbol_of_find? h]

section

variable {l : Language} {src : Source}

mutual

/-- **Derivations.** What is derived is laid out. -/
theorem Production.Derives.laid : ∀ {r : Production} {n : Node} {p q : Nat},
    l.grammar.find? r.symbol = some r → r.Derives l src n p q → Laid l.grammar src [n] p q
  | _, _, _, _, found, .named rule _ =>
      rule.laid (fun _ ht => .production found ht) fun _ hc _ ht => .inline found hc ht

theorem Rule.Derives.laid : ∀ {r : Rule} {name : String} {n : Node} {p q : Nat},
    (∀ t, r = .terminal t → l.grammar.Names t name) →
    (∀ c, r = .composite c → ∀ t ∈ c.terminals, l.grammar.Names t t.inlineSymbol) →
    r.Derives l src name n p q → Laid l.grammar src [n] p q
  | _, _, _, _, _, named, _, .atom reads => .atom (named _ rfl) reads
  | _, _, _, _, _, _, known, .composite group => .composite (group.laid (known _ rfl))

theorem Aggregation.Derives.laid : ∀ {a : Aggregation} {es : List Element} {ns : List Node}
    {p q : Nat}, l.grammar.Knows (.group a es) → a.Derives l src es ns p q →
      Laid l.grammar src ns p q
  | _, _, _, _, _, known, .sequence all =>
      elements_laid (fun _ he _ ht => known _ (Element.mem_terminals he ht)) all
  | _, _, _, _, _, known, .choice member one => one.laid fun _ ht =>
      known _ (Element.mem_terminals member ht)
  | _, _, _, _, _, known, .set split order _ =>
      taken_laid (fun _ he _ ht =>
        known _ (Element.mem_terminals (split.subset (List.mem_append_left _ he)) ht)) order

theorem elements_laid : ∀ {es : List Element} {ns : List Node} {p q : Nat},
    (∀ e ∈ es, l.grammar.Knows e.kind) →
      Consecutive (· ≤ ·) (Element.Derives l src) es ns p q → Laid l.grammar src ns p q
  | _, _, _, _, _, .nil p => .nil p
  | _, _, _, _, known, .cons first _ others =>
      .append (first.laid (known _ List.mem_cons_self))
        (elements_laid (fun e he => known e (List.mem_cons_of_mem _ he)) others)

theorem taken_laid : ∀ {es : List Element} {ns : List Node} {p q : Nat},
    (∀ e ∈ es, l.grammar.Knows e.kind) →
      Consecutive (· < ·) (Element.Derives l src) es ns p q → Laid l.grammar src ns p q
  | _, _, _, _, _, .nil p => .nil p
  | _, _, _, _, known, .cons first _ others =>
      .append (first.laid (known _ List.mem_cons_self))
        (taken_laid (fun e he => known e (List.mem_cons_of_mem _ he)) others)

theorem Element.Derives.laid : ∀ {e : Element} {ns : List Node} {p q : Nat},
    l.grammar.Knows e.kind → e.Derives l src ns p q → Laid l.grammar src ns p q
  | _, _, _, _, known, .counted occurrences _ _ =>
      occurrences_laid (fun _ hk => List.eq_of_mem_replicate hk ▸ known) occurrences
  | _, _, _, _, known, .idle occurrences last _ =>
      .append (occurrences_laid (fun _ hk => List.eq_of_mem_replicate hk ▸ known) occurrences)
        (last.laid known)

theorem occurrences_laid : ∀ {ks : List Kind} {ns : List Node} {p q : Nat},
    (∀ k ∈ ks, l.grammar.Knows k) →
      Consecutive (· ≤ ·) (Kind.Derives l src) ks ns p q → Laid l.grammar src ns p q
  | _, _, _, _, _, .nil p => .nil p
  | _, _, _, _, known, .cons first _ others =>
      .append (first.laid (known _ List.mem_cons_self))
        (occurrences_laid (fun k hk => known k (List.mem_cons_of_mem _ hk)) others)

theorem Kind.Derives.laid : ∀ {k : Kind} {ns : List Node} {p q : Nat},
    l.grammar.Knows k → k.Derives l src ns p q → Laid l.grammar src ns p q
  | _, _, _, _, _, .reference found named => named.laid (Grammar.find?_symbol found)
  | _, _, _, _, known, .terminal reads => .atom (known _ List.mem_cons_self) reads
  | _, _, _, _, known, .group inner => inner.laid known

end

end

section

variable {l : Language} {r : Production} {n : Node} {p q : Nat}

theorem Rule.Derives.spans {src : Source} {r : Rule} {name : String}
    (h : r.Derives l src name n p q) (hp : p ≤ src.size) (hpq : p ≤ q) : n.Spans p q := by
  cases h with
  | atom reads => exact (reads.bounds hp).2.2
  | composite _ =>
      refine ⟨rfl, ?_⟩
      simp only [Segment.stop]
      omega

variable (found : l.grammar.find? r.symbol = some r)

include found

theorem Production.Derives.laidOut {src : Source} (h : r.Derives l src n p q)
    (hp : p ≤ src.size) : n.LaidOut src p q := by
  have hlaid := h.laid found
  obtain ⟨hpq, -, -⟩ := hlaid.bounds hp
  have hbelow := hlaid.laidOut hp
  rw [Node.preorders_singleton] at hbelow
  cases h with
  | named rule _ =>
      exact ⟨rule.spans hp hpq, fun m hm => (hbelow m hm).1, fun m hm => (hbelow m hm).2.1,
        fun m hm => (hbelow m hm).2.2⟩

/-- The atoms of a tree tile it unless there is delimited content: a root that is an atom
is its own only tile. -/
theorem Production.Derives.tiles {src : Source} (h : r.Derives l src n p q) (hp : p ≤ src.size)
    (hplain : n.Undelimited l.grammar) :
    Tiles (n.atoms.map Node.segment) n.segment.offset n.segment.stop := by
  have htiles := (h.laid found).tiles (Node.preorders_singleton n ▸ hplain)
  rw [Node.preorders_singleton] at htiles
  have hspans := (h.laidOut found hp).spans
  cases n with
  | atom name seg => exact .cons (.nil seg.stop)
  | composite name seg ns =>
      obtain ⟨rfl, rfl⟩ := hspans
      exact htiles

theorem Production.Derives.join_texts {text : String} (h : r.Derives l (.ofString text) n p q)
    (hp : p ≤ (Source.ofString text).size) (hplain : n.Undelimited l.grammar) :
    String.join (n.atoms.map fun a => a.text (.ofString text)) = n.text (.ofString text) := by
  have hjoin := (h.tiles found hp hplain).join_texts text
  have hcount : n.segment.stop - n.segment.offset = n.segment.count := by
    simp only [Segment.stop]
    omega
  rw [hcount, List.map_map] at hjoin
  exact hjoin

end

/-! ## Languages -/

/-- How what is recognized from a position of a text on is laid out. No composite is ever
asked to be made over children that it does not cover, so none is refused. -/
structure Reply.LaysOut (g : Grammar) (text : String) (entry : Nat) (r : Reply Diagnosis Node) :
    Prop where
  layout : ∀ n q, r = .success n q → n.LaidOut (.ofString text) entry q
  tiles : ∀ n q, r = .success n q → n.Undelimited g →
    Tiles (n.atoms.map Node.segment) n.segment.offset n.segment.stop ∧
      String.join (n.atoms.map fun a => a.text (.ofString text)) = n.text (.ofString text)
  faultless : ∀ f, r ≠ .fault f

/-- **Layout.** Whatever the language and the text, and wherever recognition starts, a tree
covers what was read for it: composites all of it and all their children, which do not
overlap and come in their order. Without delimited content the texts of the atoms make up
the text of the tree. -/
theorem recognition_lays_out (l : Language) (text : String) {p : Nat}
    (hp : p ≤ (Source.ofString text).size) :
    (∀ symbol, (l.recognizeAt (.ofString text) symbol p).LaysOut l.grammar text p) ∧
      ∀ symbol path,
        (l.recognizeBelow (.ofString text) symbol path p).LaysOut l.grammar text p := by
  have production (path : Path) :
      ((l.fullScope (.ofString text)).production path.symbol path p).LaysOut l.grammar text p := by
    have horderly := l.scope_orderly (.ofString text) (l.stage (.ofString text))
    have hderives := l.derives_of_scope (.ofString text) (l.stage (.ofString text))
    simp only [Language.scope_source] at horderly hderives
    have hfound {n : Node} {q : Nat}
        (h : (l.fullScope (.ofString text)).production path.symbol path p = .success n q) :
        ∃ r, l.grammar.find? r.symbol = some r ∧ r.Derives l (.ofString text) n p q := by
      obtain ⟨r, hfind, hr⟩ := hderives path p q n hp h
      exact ⟨r, Grammar.find?_symbol hfind, hr⟩
    constructor
    case layout =>
      intro n q h
      obtain ⟨r, hfind, hr⟩ := hfound h
      exact hr.laidOut hfind hp
    case tiles =>
      intro n q h hplain
      obtain ⟨r, hfind, hr⟩ := hfound h
      exact ⟨hr.tiles hfind hp hplain, hr.join_texts hfind hp hplain⟩
    case faultless => exact (horderly path.symbol path p hp).answers
  exact ⟨fun symbol => production (.root symbol), fun symbol path => production (path.child symbol)⟩

theorem recognition_lays_out_list :
    0 ≤ (Source.ofString "(a)").size ∧
      listLanguage.recognizeAt (Source.ofString "(a)") "list" 0 = .success shortList 3 ∧
      shortList.LaidOut (Source.ofString "(a)") 0 3 ∧
      String.join (shortList.atoms.map fun a => a.text (Source.ofString "(a)")) =
        shortList.text (Source.ofString "(a)") := by
  have hrun : listLanguage.recognizeAt (Source.ofString "(a)") "list" 0 = .success shortList 3 := by
    rfl
  have h := (recognition_lays_out listLanguage "(a)" (p := 0) (by decide)).1 "list"
  have hplain : listLanguage.grammar.Undelimited := by
    unfold Grammar.Undelimited
    decide
  exact ⟨by decide, hrun, h.layout _ _ hrun, (h.tiles _ _ hrun (hplain.node shortList)).2⟩

end ConcreteSyntax
