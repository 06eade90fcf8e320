import ConcreteSyntax.Source

/-!
# Concrete syntax trees

A node is an atom, which an atomic rule recognized, or a composite over the
nodes of the elements of a group. Every node carries its symbol and the segment
of the input it covers. A forest is what one step of a group yields: nodes in
order, and whether the step was an optional one that matched nothing.
-/

namespace ConcreteSyntax

/-- A node of a concrete syntax tree. -/
inductive Node where
  | atom (symbol : String) (segment : Segment)
  /-- A node with children; its segment covers all that was read for it. -/
  | composite (symbol : String) (segment : Segment) (children : List Node)
deriving Repr

namespace Node

def symbol : Node → String
  | atom s _ => s
  | composite s _ _ => s

def segment : Node → Segment
  | atom _ seg => seg
  | composite _ seg _ => seg

def children : Node → List Node
  | atom _ _ => []
  | composite _ _ nodes => nodes

def isAtom : Node → Bool
  | atom _ _ => true
  | composite _ _ _ => false

def text (n : Node) (src : Source) : String := src.textOf n.segment

def child? (n : Node) (symbol : String) : Option Node :=
  n.children.find? fun c => c.symbol == symbol

/-- The composite node over `children`, each of which `segment` has to cover. -/
def ofChildren (symbol : String) (segment : Segment) (children : List Node) :
    Except Fault Node :=
  if children.all fun c => c.segment.coveredBy segment then
    .ok (composite symbol segment children)
  else .error (.uncovered symbol)

mutual

def size : Node → Nat
  | atom _ _ => 1
  | composite _ _ nodes => 1 + sizes nodes

def sizes : List Node → Nat
  | [] => 0
  | n :: ns => n.size + sizes ns

end

theorem sizes_append (ns ms : List Node) : sizes (ns ++ ms) = sizes ns + sizes ms := by
  induction ns with
  | nil => simp [sizes]
  | cons n ns ih => simp [sizes, ih, Nat.add_assoc]

theorem size_eq (n : Node) : n.size = 1 + sizes n.children := by
  cases n <;> simp [size, children, sizes]

end Node

/-- The nodes that one step of a group yields. -/
structure Forest where
  nodes : List Node
  /-- Was the step an optional one that matched nothing? -/
  optional : Bool
deriving Repr

namespace Forest

/-- No nodes, from a step that was not optional. -/
def empty : Forest := ⟨[], false⟩

/-- No nodes, from an optional step that matched nothing. -/
def optionalEmpty : Forest := ⟨[], true⟩

/-- These nodes, from a step that was not optional. -/
def ofNodes (nodes : List Node) : Forest := ⟨nodes, false⟩

def single (n : Node) : Forest := ofNodes [n]

/-- The nodes of a second step after those of a first; only the first step
decides whether the whole is an optional one. -/
def append (f g : Forest) : Forest := ⟨f.nodes ++ g.nodes, f.optional⟩

instance : Append Forest := ⟨append⟩

def length (f : Forest) : Nat := f.nodes.length

def isEmpty (f : Forest) : Bool := f.nodes.isEmpty

@[simp] theorem nodes_append (f g : Forest) : (f ++ g).nodes = f.nodes ++ g.nodes := rfl

@[simp] theorem optional_append (f g : Forest) : (f ++ g).optional = f.optional := rfl

end Forest

end ConcreteSyntax
