import ConcreteSyntax.Proofs.Slices
import ConcreteSyntax.Recognizer.AnyOrder
import ConcreteSyntax.Recognizer.Repetition

/-!
# Moved along an input

An input without its first tokens is an input again, in which everything stands so many
places earlier. Whatever names a place of the shorter input is moved along to name the
same tokens of the longer one, and each question about tokens has the answer there that
it has here.
-/

namespace ConcreteSyntax

/-! ## What is moved -/

/-- The same tokens, `k` places further on. -/
def Segment.shift (k : Nat) (s : Segment) : Segment := ⟨s.offset + k, s.count⟩

mutual

/-- The node with every segment in it moved along. -/
def Node.shift (k : Nat) : Node → Node
  | .atom s seg => .atom s (seg.shift k)
  | .composite s seg nodes => .composite s (seg.shift k) (Node.shiftAll k nodes)

def Node.shiftAll (k : Nat) : List Node → List Node
  | [] => []
  | n :: ns => n.shift k :: Node.shiftAll k ns

end

theorem Node.shiftAll_eq_map (k : Nat) (ns : List Node) :
    Node.shiftAll k ns = ns.map (Node.shift k) := by
  induction ns with
  | nil => rfl
  | cons n ns ih => rw [shiftAll, ih, List.map_cons]

/-- The diagnosis with its position moved along, and those of its causes. What was
recognized is as long as before. -/
def Diagnosis.shift (k : Nat) : Diagnosis → Diagnosis
  | .failed path n => .failed path (n + k)
  | .incomplete path n length reason none => .incomplete path (n + k) length reason none
  | .incomplete path n length reason (some cause) =>
    .incomplete path (n + k) length reason (some (cause.shift k))

def Forest.shift (k : Nat) (f : Forest) : Forest := { f with nodes := f.nodes.map (Node.shift k) }

def Candidate.shift (k : Nat) (c : Candidate) : Candidate :=
  { c with stop := c.stop + k, nodes := c.nodes.map (Node.shift k) }

/-! ## Moved by nothing -/

@[simp] theorem Segment.shift_zero (s : Segment) : s.shift 0 = s := rfl

mutual

theorem Node.shift_zero : ∀ n : Node, n.shift 0 = n
  | .atom _ _ => rfl
  | .composite s seg nodes => by
      rw [Node.shift, Node.shiftAll_zero nodes, Segment.shift_zero]

theorem Node.shiftAll_zero : ∀ ns : List Node, Node.shiftAll 0 ns = ns
  | [] => rfl
  | n :: ns => by rw [Node.shiftAll, Node.shift_zero n, Node.shiftAll_zero ns]

end

theorem Diagnosis.shift_zero (d : Diagnosis) : d.shift 0 = d := by
  fun_induction Diagnosis.shift 0 d with
  | case1 => rfl
  | case2 => rfl
  | case3 path n length reason cause ih => rw [ih, Nat.add_zero]

theorem Forest.shift_zero (f : Forest) : f.shift 0 = f := by
  rw [shift, ← Node.shiftAll_eq_map, Node.shiftAll_zero]

/-! ## What is seen of it -/

section

variable (k : Nat)

@[simp] theorem Segment.stop_shift (s : Segment) : (s.shift k).stop = s.stop + k := by
  simp only [stop, shift]
  omega

@[simp] theorem Segment.isEmpty_shift (s : Segment) : (s.shift k).isEmpty = s.isEmpty := rfl

@[simp] theorem Segment.coveredBy_shift (s t : Segment) :
    (s.shift k).coveredBy (t.shift k) = s.coveredBy t := by
  simp only [coveredBy, stop_shift, Nat.add_le_add_iff_right]
  simp only [shift, Nat.add_le_add_iff_right]

@[simp] theorem Node.segment_shift (n : Node) : (n.shift k).segment = n.segment.shift k := by
  cases n <;> rfl

@[simp] theorem Candidate.beats_shift (c d : Candidate) :
    (c.shift k).beats (d.shift k) = c.beats d := by
  simp only [beats, shift, Nat.add_lt_add_iff_right]
  rfl

theorem Candidate.after_shift (f : Forest) (c : Candidate) :
    (c.shift k).after (f.shift k) = (c.after f).shift k := by
  simp only [after, shift, Forest.shift, List.map_append]

theorem Forest.ofNodes_shift (ns : List Node) :
    Forest.ofNodes (ns.map (Node.shift k)) = (Forest.ofNodes ns).shift k := rfl

theorem Forest.single_shift (n : Node) :
    Forest.single (n.shift k) = (Forest.single n).shift k := rfl

end

/-! ## Two inputs -/

/-- The second input is the first one from the token numbered `k` on. -/
structure Source.Tail (src src' : Source) (k : Nat) : Prop where
  inside : k ≤ src.size
  tokens : src'.tokens.toList = src.tokens.toList.drop k

namespace Source.Tail

variable {src src' : Source} {k : Nat}

theorem refl (src : Source) : src.Tail src 0 := ⟨Nat.zero_le _, rfl⟩

variable (h : src.Tail src' k)

include h

theorem size_eq : src.size = src'.size + k := by
  have hlength := congrArg List.length h.tokens
  rw [List.length_drop, Array.length_toList, Array.length_toList] at hlength
  have hinside := h.inside
  simp only [size] at hinside ⊢
  omega

theorem le_size_iff {p : Nat} : p + k ≤ src.size ↔ p ≤ src'.size := by
  rw [h.size_eq, Nat.add_le_add_iff_right]

theorem token?_eq (p : Nat) : src.token? (p + k) = src'.token? p := by
  rw [token?, token?, ← Array.getElem?_toList, ← Array.getElem?_toList, h.tokens,
    List.getElem?_drop, Nat.add_comm]

theorem slice_shift (a b : Nat) : src.slice (a + k) (b + k) = src'.slice a b := by
  rw [slice_eq, slice_eq, h.tokens, List.take_drop, List.drop_drop, Nat.add_comm k b,
    Nat.add_comm k a]

theorem window_shift (p n : Nat) : src.window ⟨p + k, n⟩ = src'.window ⟨p, n⟩ := by
  simp only [window, Segment.stop]
  rw [Nat.add_right_comm, h.slice_shift]

theorem remaining_shift (p : Nat) : src.remaining (p + k) = src'.remaining p := by
  rw [remaining, remaining, h.size_eq, h.slice_shift]

theorem comesNext_shift (p : Nat) (xs : List Char) :
    src.comesNext (p + k) xs = src'.comesNext p xs := by
  rw [comesNext, comesNext, Nat.add_right_comm, h.slice_shift]

theorem expect?_shift (p : Nat) (xs : List Char) :
    src.expect? (p + k) xs = (src'.expect? p xs).map (· + k) := by
  rw [expect?, expect?, h.comesNext_shift]
  split
  · rw [Option.map_some, Nat.add_right_comm]
  · rfl

theorem advance?_shift (p n : Nat) :
    src.advance? (p + k) n = (src'.advance? p n).map (· + k) := by
  have hleft : src.size - (p + k) = src'.size - p := by
    rw [h.size_eq]
    omega
  rw [advance?, advance?, hleft]
  split
  · rw [Option.map_some, Nat.add_right_comm]
  · rfl

/-- Content is looked at from where it starts, and its end is not before that. -/
theorem endsWith_shift (start p : Nat) (xs : List Char) :
    src.endsWith (start + k) (p + k) xs = src'.endsWith start p xs := by
  by_cases hle : start + xs.length ≤ p
  · have hback : p + k - xs.length = p - xs.length + k := by omega
    rw [endsWith, endsWith, hback, h.slice_shift, decide_eq_true hle,
      decide_eq_true (show start + k + xs.length ≤ p + k by omega)]
  · rw [endsWith, endsWith, decide_eq_false hle,
      decide_eq_false (show ¬ start + k + xs.length ≤ p + k by omega)]
    rfl

end Source.Tail

end ConcreteSyntax
