import ConcreteSyntax.Node
import ConcreteSyntax.Text.Quoted

/-!
# Walks over a tree

Both walks keep the nodes still to be visited in a list, the next one first. A
visited node is replaced by its children, so nodes come in depth-first
pre-order: a node before its children, children from left to right. The number
of nodes pending, counted with all below them, falls at every step.
-/

namespace ConcreteSyntax.Node

/-- The nodes named `symbol` among those pending and all below them. -/
def gather (symbol : String) : List Node → List Node
  | [] => []
  | n :: pending =>
    if n.symbol == symbol then n :: gather symbol (n.children ++ pending)
    else gather symbol (n.children ++ pending)
termination_by pending => sizes pending
decreasing_by all_goals (rw [sizes_append, sizes, size_eq]; omega)

/-- Every node named `symbol`, the tree itself included, in depth-first
pre-order. -/
def findAll (n : Node) (symbol : String) : List Node := gather symbol [n]

/-- One line of the written tree: the symbol and, for an atom, its quoted text. -/
def line (src : Source) (hidden : Char → Bool) (depth : Nat) (n : Node) : String :=
  let indent := String.ofList (List.replicate depth ' ')
  match n with
  | atom symbol segment =>
    indent ++ symbol ++ " " ++ Text.quoted (src.textOf segment) hidden ++ "\n"
  | composite symbol _ _ => indent ++ symbol ++ "\n"

/-- The number of nodes in trees that are pending at some depth. -/
def pendingSize (pending : List (Nat × Node)) : Nat := sizes (pending.map Prod.snd)

/-- The lines of the nodes pending, each with its depth, and of all below them. -/
def lines (src : Source) (hidden : Char → Bool) : List (Nat × Node) → List String
  | [] => []
  | (depth, n) :: pending =>
    n.line src hidden depth ::
      lines src hidden (n.children.map (fun c => (depth + 1, c)) ++ pending)
termination_by pending => pendingSize pending
decreasing_by
  simp only [pendingSize, List.map_append, List.map_map, Function.comp_def, List.map_id',
    sizes_append, List.map_cons, sizes]
  rw [size_eq]
  omega

/-- The tree in writing: a line for every node in depth-first pre-order,
indented by the depth of the node. In quoted texts `hidden` characters are written as
their code points. -/
def render (src : Source) (n : Node) (hidden : Char → Bool := Text.isHidden) : String :=
  String.join (lines src hidden [(0, n)])

end ConcreteSyntax.Node
