import ConcreteSyntax.Node.Walk
import ConcreteSyntax.Proofs.Layout
import Mathlib.Logic.Function.Iterate

/-!
# Walks in pre-order

Every node of a tree has an address: the numbers of the children to go down to, from the root.
In lexicographic order of the addresses a node comes before its children, and children come
from left to right, each with all that is below it. A walk with a list of pending nodes goes
through the tree in this order, because the trees that are pending, one behind the other, are
at all times just what the order has left. In the written tree the indentation of a node is
the length of its address.
-/

namespace ConcreteSyntax

namespace Node

/-! ## Addresses -/

/-- The node that is reached by going down to the child with each of these numbers in turn. -/
def below? : Node → List Nat → Option Node
  | n, [] => some n
  | n, i :: rest => n.children[i]?.bind fun c => c.below? rest

mutual

/-- The nodes of the tree with their addresses, in pre-order. -/
def located : Node → List (List Nat × Node)
  | atom symbol segment => [([], atom symbol segment)]
  | composite symbol segment nodes => ([], composite symbol segment nodes) :: locatedFrom 0 nodes

/-- The same for siblings, the first of which has the number `i`. -/
def locatedFrom : (i : Nat) → List Node → List (List Nat × Node)
  | _, [] => []
  | i, n :: ns => n.located.map (fun x => (i :: x.1, x.2)) ++ locatedFrom (i + 1) ns

end

theorem located_eq (n : Node) : n.located = ([], n) :: locatedFrom 0 n.children := by
  cases n <;> rfl

theorem preorder_eq (n : Node) : n.preorder = n :: preorders n.children := by
  cases n <;> rfl

mutual

theorem map_snd_located : ∀ n : Node, n.located.map Prod.snd = n.preorder
  | atom symbol segment => rfl
  | composite symbol segment nodes => by
      rw [located, preorder, List.map_cons, map_snd_locatedFrom]

theorem map_snd_locatedFrom : ∀ (i : Nat) (ns : List Node),
    (locatedFrom i ns).map Prod.snd = preorders ns
  | _, [] => rfl
  | i, n :: ns => by
      rw [locatedFrom, preorders, List.map_append, List.map_map, map_snd_locatedFrom]
      congr 1
      exact map_snd_located n

end

/-- **Induction over trees.** What holds of a node if it holds of its children holds of all. -/
theorem induction {P : Node → Prop} (h : ∀ n : Node, (∀ c ∈ n.children, P c) → P n) :
    ∀ n, P n := by
  have atoms : ∀ symbol segment, P (atom symbol segment) := fun symbol segment =>
    h (atom symbol segment) fun c hc => absurd hc List.not_mem_nil
  have nil : ∀ c ∈ ([] : List Node), P c := fun c hc => absurd hc List.not_mem_nil
  have cons : ∀ (n : Node) (ns : List Node), P n → (∀ c ∈ ns, P c) → ∀ c ∈ n :: ns, P c :=
    fun n ns hn hns => List.forall_mem_cons.mpr ⟨hn, hns⟩
  exact @Node.rec P (fun ns => ∀ c ∈ ns, P c) atoms
    (fun symbol segment nodes => h (composite symbol segment nodes)) nil cons

theorem mem_locatedFrom_iff {ns : List Node}
    (h : ∀ c ∈ ns, ∀ rest m, (rest, m) ∈ c.located ↔ c.below? rest = some m) (i : Nat)
    (address : List Nat) (m : Node) : (address, m) ∈ locatedFrom i ns ↔
      ∃ j rest, address = (i + j) :: rest ∧ (ns[j]?.bind fun c => c.below? rest) = some m := by
  induction ns generalizing i with
  | nil => simp [locatedFrom]
  | cons n ns ih =>
      obtain ⟨hn, hns⟩ := List.forall_mem_cons.mp h
      rw [locatedFrom, List.mem_append, ih hns, List.mem_map]
      constructor
      · rintro (⟨⟨rest, m'⟩, hfirst, heq⟩ | ⟨j, rest, rfl, hothers⟩)
        · obtain ⟨rfl, rfl⟩ := Prod.mk.inj heq
          exact ⟨0, rest, rfl, (hn rest m').mp hfirst⟩
        · exact ⟨j + 1, rest, by rw [Nat.add_right_comm, Nat.add_assoc], hothers⟩
      · rintro ⟨j, rest, rfl, hbelow⟩
        cases j with
        | zero => exact Or.inl ⟨(rest, m), (hn rest m).mpr hbelow, rfl⟩
        | succ j =>
            exact Or.inr ⟨j, rest, by rw [Nat.add_right_comm, Nat.add_assoc], hbelow⟩

/-- **Addresses.** A node is listed with an address just if it is reached by it. -/
theorem mem_located_iff (n : Node) : ∀ (address : List Nat) (m : Node),
    (address, m) ∈ n.located ↔ n.below? address = some m := by
  induction n using induction with
  | h n ih =>
      intro address m
      rw [located_eq, List.mem_cons, mem_locatedFrom_iff ih]
      cases address with
      | nil => simp [below?, eq_comm]
      | cons i rest => simp [below?]

/-- Below siblings numbered from `i` on, addresses begin with such a number. -/
theorem exists_of_mem_locatedFrom {i : Nat} {ns : List Node} {x : List Nat × Node}
    (hx : x ∈ locatedFrom i ns) : ∃ j rest, i ≤ j ∧ x.1 = j :: rest := by
  obtain ⟨j, rest, haddress, -⟩ :=
    (mem_locatedFrom_iff (fun c _ => mem_located_iff c) i x.1 x.2).mp hx
  exact ⟨i + j, rest, Nat.le_add_right i j, haddress⟩

theorem pairwise_locatedFrom {ns : List Node}
    (h : ∀ c ∈ ns, c.located.Pairwise fun x y => x.1 < y.1) (i : Nat) :
    (locatedFrom i ns).Pairwise fun x y => x.1 < y.1 := by
  induction ns generalizing i with
  | nil => exact List.Pairwise.nil
  | cons n ns ih =>
      obtain ⟨hn, hns⟩ := List.forall_mem_cons.mp h
      rw [locatedFrom, List.pairwise_append, List.pairwise_map]
      refine ⟨hn.imp fun hlt => List.cons_lt_cons_iff.mpr (Or.inr ⟨rfl, hlt⟩), ih hns _, ?_⟩
      intro x hx y hy
      obtain ⟨x', -, rfl⟩ := List.mem_map.mp hx
      obtain ⟨j, rest, hj, haddress⟩ := exists_of_mem_locatedFrom hy
      rw [haddress]
      exact List.cons_lt_cons_iff.mpr (Or.inl hj)

/-- **The order of addresses.** It is the lexicographic one, so no address comes twice. -/
theorem pairwise_located (n : Node) : n.located.Pairwise fun x y => x.1 < y.1 := by
  induction n using induction with
  | h n ih =>
      rw [located_eq, List.pairwise_cons]
      refine ⟨fun x hx => ?_, pairwise_locatedFrom ih 0⟩
      obtain ⟨j, rest, -, haddress⟩ := exists_of_mem_locatedFrom hx
      rw [haddress]
      exact List.nil_lt_cons j rest

/-! ## Rounds -/

/-- One round of a walk: the first that is pending gives way to what is below it. -/
def round {α : Type} (below : α → List α) : List α → List α
  | [] => []
  | x :: pending => below x ++ pending

/-- The children of a node at some depth. -/
def childrenAt (x : Nat × Node) : List (Nat × Node) := x.2.children.map fun c => (x.1 + 1, c)

/-- Forgetting depths, the walks are the same. -/
theorem map_snd_rounds (k : Nat) (pending : List (Nat × Node)) :
    ((round childrenAt)^[k] pending).map Prod.snd =
      (round children)^[k] (pending.map Prod.snd) := by
  induction k generalizing pending with
  | zero => rfl
  | succ k ih =>
      rw [Function.iterate_succ_apply, Function.iterate_succ_apply, ih]
      congr 1
      cases pending with
      | nil => rfl
      | cons x pending => simp [round, childrenAt, Function.comp_def]

/-- A round visits the next node of the order. -/
theorem preorders_round (pending : List Node) :
    preorders (round children pending) = (preorders pending).drop 1 := by
  cases pending with
  | nil => rfl
  | cons n pending => rw [round, preorders_append, preorders, preorder_eq n]; rfl

/-- **Pending trees.** After some rounds they are what the order has left. -/
theorem preorders_rounds (k : Nat) (pending : List Node) :
    preorders ((round children)^[k] pending) = (preorders pending).drop k := by
  induction k generalizing pending with
  | zero => rfl
  | succ k ih =>
      rw [Function.iterate_succ_apply, ih, preorders_round, List.drop_drop, Nat.add_comm]

theorem preorders_eq_nil_iff {ns : List Node} : preorders ns = [] ↔ ns = [] := by
  cases ns with
  | nil => simp [preorders]
  | cons n ns => simp [preorders, preorder_eq n]

theorem length_preorders {ns : List Node} (h : ∀ n ∈ ns, n.preorder.length = n.size) :
    (preorders ns).length = sizes ns := by
  induction ns with
  | nil => rfl
  | cons n ns ih =>
      obtain ⟨hn, hns⟩ := List.forall_mem_cons.mp h
      rw [preorders, sizes, List.length_append, hn, ih hns]

theorem length_preorder (n : Node) : n.preorder.length = n.size := by
  induction n using induction with
  | h n ih => rw [preorder_eq, size_eq, List.length_cons, length_preorders ih, Nat.add_comm]

/-- **Rounds.** A walk ends after as many rounds as there are nodes. -/
theorem rounds_eq_nil_iff (n : Node) (k : Nat) :
    (round children)^[k] [n] = [] ↔ n.size ≤ k := by
  rw [← preorders_eq_nil_iff, preorders_rounds, List.drop_eq_nil_iff, preorders_singleton,
    length_preorder]

theorem roundsAt_eq_nil_iff (n : Node) (k : Nat) :
    (round childrenAt)^[k] [(0, n)] = [] ↔ n.size ≤ k := by
  rw [← rounds_eq_nil_iff, ← List.map_eq_nil_iff, map_snd_rounds]
  rfl

/-! ## The two walks -/

/-- Found are the nodes with the symbol, in the order of the trees pending. -/
theorem gather_eq (symbol : String) (pending : List Node) :
    gather symbol pending = (preorders pending).filter fun m => m.symbol == symbol := by
  induction pending using gather.induct symbol with
  | case1 => rw [gather, preorders, List.filter_nil]
  | case2 n pending hsymbol ih =>
      rw [gather, if_pos hsymbol, ih, preorders_append, preorders, preorder_eq n,
        List.cons_append, List.filter_cons, if_pos hsymbol]
  | case3 n pending hsymbol ih =>
      rw [gather, if_neg hsymbol, ih, preorders_append, preorders, preorder_eq n,
        List.cons_append, List.filter_cons, if_neg hsymbol]

/-- What a line of the written tree says: the symbol and, for an atom, its quoted text. -/
def entry (src : Source) (hidden : Char → Bool) : Node → String
  | atom symbol segment => symbol ++ " " ++ Text.quoted (src.textOf segment) hidden
  | composite symbol _ _ => symbol

variable (src : Source) (hidden : Char → Bool)

theorem line_eq (depth : Nat) (n : Node) : n.line src hidden depth =
    String.ofList (List.replicate depth ' ') ++ n.entry src hidden ++ "\n" := by
  cases n <;> simp only [line, entry, String.append_assoc]

/-- The lines of a tree whose root is at some depth. -/
def linesAt (x : Nat × Node) : List String :=
  x.2.located.map fun y => y.2.line src hidden (x.1 + y.1.length)

theorem map_line_locatedFrom (depth i : Nat) (ns : List Node) :
    (locatedFrom i ns).map (fun y => y.2.line src hidden (depth + y.1.length)) =
      (ns.map fun c => (depth + 1, c)).flatMap (linesAt src hidden) := by
  induction ns generalizing i with
  | nil => rfl
  | cons n ns ih =>
      rw [locatedFrom, List.map_append, ih, List.map_map, List.map_cons, List.flatMap_cons]
      refine congrArg₂ (· ++ ·) (List.map_congr_left fun y _ => ?_) rfl
      show y.2.line src hidden (depth + (y.1.length + 1)) =
        y.2.line src hidden (depth + 1 + y.1.length)
      rw [Nat.add_right_comm, Nat.add_assoc]

theorem linesAt_eq (x : Nat × Node) : linesAt src hidden x =
    x.2.line src hidden x.1 :: (childrenAt x).flatMap (linesAt src hidden) := by
  rw [linesAt, located_eq, List.map_cons, map_line_locatedFrom]
  rfl

/-- Written are the lines of the trees pending, one tree after the other. -/
theorem lines_eq (pending : List (Nat × Node)) :
    lines src hidden pending = pending.flatMap (linesAt src hidden) := by
  induction pending using lines.induct with
  | case1 => rw [lines, List.flatMap_nil]
  | case2 depth n pending ih =>
      rw [lines, ih, List.flatMap_append, List.flatMap_cons, linesAt_eq]
      rfl

/-- What is written in a round is the next line. -/
theorem lines_round (pending : List (Nat × Node)) :
    lines src hidden (round childrenAt pending) = (lines src hidden pending).drop 1 := by
  cases pending with
  | nil => rw [round, lines]; rfl
  | cons x pending =>
      rw [lines_eq, lines_eq, round, List.flatMap_append, List.flatMap_cons, linesAt_eq]
      rfl

theorem lines_rounds (k : Nat) (pending : List (Nat × Node)) :
    lines src hidden ((round childrenAt)^[k] pending) = (lines src hidden pending).drop k := by
  induction k generalizing pending with
  | zero => rfl
  | succ k ih => rw [Function.iterate_succ_apply, ih, lines_round, List.drop_drop, Nat.add_comm]

end Node

/-- **Walks.** All nodes of a tree are found, each with its address, and in the order of the
addresses; this is the pre-order. The search for a symbol answers the nodes that have it, in
this order. The written tree has a line for each node in this order, indented by the length of
the address, whichever characters are hidden. Both walks end, after as many rounds as there
are nodes: after each round they go on with what the order has left. -/
theorem walks_in_preorder (n : Node) (symbol : String) (src : Source) (hidden : Char → Bool) :
    (n.located.Pairwise (fun x y => x.1 < y.1) ∧
        (∀ address m, (address, m) ∈ n.located ↔ n.below? address = some m) ∧
        n.located.map Prod.snd = n.preorder) ∧
      n.findAll symbol = n.preorder.filter (fun m => m.symbol == symbol) ∧
      n.render src hidden = String.join (n.located.map fun x =>
        String.ofList (List.replicate x.1.length ' ') ++ x.2.entry src hidden ++ "\n") ∧
      (∀ k, Node.gather symbol ((Node.round Node.children)^[k] [n]) =
          (n.preorder.drop k).filter (fun m => m.symbol == symbol) ∧
        ((Node.round Node.children)^[k] [n] = [] ↔ n.size ≤ k)) ∧
      ∀ k, Node.lines src hidden ((Node.round Node.childrenAt)^[k] [(0, n)]) =
          (Node.lines src hidden [(0, n)]).drop k ∧
        ((Node.round Node.childrenAt)^[k] [(0, n)] = [] ↔ n.size ≤ k) := by
  refine ⟨⟨n.pairwise_located, n.mem_located_iff, n.map_snd_located⟩, ?_, ?_,
    fun k => ⟨?_, n.rounds_eq_nil_iff k⟩,
    fun k => ⟨Node.lines_rounds src hidden k _, n.roundsAt_eq_nil_iff k⟩⟩
  · rw [Node.findAll, Node.gather_eq, Node.preorders_singleton]
  · rw [Node.render, Node.lines_eq, List.flatMap_singleton, Node.linesAt]
    refine congrArg String.join (List.map_congr_left fun x _ => ?_)
    rw [Nat.zero_add, Node.line_eq]
  · rw [Node.gather_eq, Node.preorders_rounds, Node.preorders_singleton]

end ConcreteSyntax
