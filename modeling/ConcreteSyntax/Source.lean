import ConcreteSyntax.Segment

/-!
# Inputs

An input is a text seen in two ways: as a sequence of tokens, one for every
character, and as a text whose pieces are cut at byte offsets. The table of
offsets ties the two views: the token numbered `i` starts at the byte
`offsets[i]`, and one entry more holds the end of the text. Requests beyond the
last token are clamped to it.
-/

namespace ConcreteSyntax

/-- An input: its text, its tokens, and the byte at which every token starts. -/
structure Source where
  text : String
  tokens : Array Char
  offsets : Array Nat
deriving Repr

namespace Source

/-- The byte offset of every token, the first at `start`, and of the end. -/
def byteOffsets (start : Nat) : List Char → List Nat
  | [] => [start]
  | c :: rest => start :: byteOffsets (start + c.utf8Size) rest

def ofString (text : String) : Source :=
  { text
    tokens := text.toList.toArray
    offsets := (byteOffsets 0 text.toList).toArray }

def size (src : Source) : Nat := src.tokens.size

def token? (src : Source) (index : Nat) : Option Char := src.tokens[index]?

/-- The tokens from `start` up to `stop`, each clamped to the end of the input. -/
def slice (src : Source) (start stop : Nat) : List Char :=
  (src.tokens.extract (min start src.size) (min stop src.size)).toList

/-- The tokens that a segment covers, as far as they exist. -/
def window (src : Source) (seg : Segment) : List Char := src.slice seg.offset seg.stop

def remaining (src : Source) (position : Nat) : List Char := src.slice position src.size

/-- The byte at which the token at `index` starts, clamped to the end of the text. -/
def byteOffset (src : Source) (index : Nat) : Nat :=
  src.offsets.getD (min index src.size) 0

/-- The piece of the text that a segment covers, cut at byte offsets. -/
def textOf (src : Source) (seg : Segment) : String :=
  String.Pos.Raw.extract src.text ⟨src.byteOffset seg.offset⟩ ⟨src.byteOffset seg.stop⟩

/-- Nothing, if the tokens from `start` up to `stop` lie within the input. -/
def within? (src : Source) (start stop : Nat) : Except Fault Unit :=
  if start ≤ stop ∧ stop ≤ src.size then .ok () else .error (.outsideInput start stop src.size)

/-- The tokens from `start` up to `stop`, which must lie within the input. -/
def slice? (src : Source) (start stop : Nat) : Except Fault (List Char) :=
  (src.within? start stop).map fun _ => src.slice start stop

/-- The position `target`, which must not lie beyond the end of the input. -/
def seek (src : Source) (target : Nat) : Except Fault Nat :=
  if target ≤ src.size then .ok target else .error (.beyondEnd target src.size)

/-- The position after `n` more tokens, if so many remain. -/
def advance? (src : Source) (position n : Nat) : Option Nat :=
  if n ≤ src.size - position then some (position + n) else none

/-- Do just these tokens come next? -/
def comesNext (src : Source) (position : Nat) (expected : List Char) : Bool :=
  src.slice position (position + expected.length) == expected

/-- The position after `expected`, if just these tokens come next. -/
def expect? (src : Source) (position : Nat) (expected : List Char) : Option Nat :=
  if src.comesNext position expected then some (position + expected.length) else none

/-- Do the tokens from `start` up to `position` end with just these? -/
def endsWith (src : Source) (start position : Nat) (expected : List Char) : Bool :=
  decide (start + expected.length ≤ position) &&
    src.slice (position - expected.length) position == expected

/-- Line and column, both from 1, reached from `(line, column)` by reading on. -/
def advancePlace (place : Nat × Nat) (c : Char) : Nat × Nat :=
  if c = '\n' then (place.1 + 1, 1) else (place.1, place.2 + 1)

/-- Line and column of the token at `index`, both from 1; columns count tokens. -/
def lineColumn (src : Source) (index : Nat) : Nat × Nat :=
  (src.slice 0 index).foldl advancePlace (1, 1)

theorem seek_of_le {src : Source} {target : Nat} (h : target ≤ src.size) :
    src.seek target = .ok target := by
  simp [seek, h]

theorem within?_of_le {src : Source} {start stop : Nat} (h₁ : start ≤ stop)
    (h₂ : stop ≤ src.size) : src.within? start stop = .ok () := by
  simp [within?, h₁, h₂]

theorem slice?_of_le {src : Source} {start stop : Nat} (h₁ : start ≤ stop)
    (h₂ : stop ≤ src.size) : src.slice? start stop = .ok (src.slice start stop) := by
  simp [slice?, within?_of_le h₁ h₂, Except.map]

theorem slice_eq (src : Source) (start stop : Nat) :
    src.slice start stop = (src.tokens.toList.take stop).drop start := by
  apply List.ext_getElem?
  intro i
  simp only [slice, size, Array.toList_extract, List.extract_eq_take_drop, List.getElem?_take,
    List.getElem?_drop, Array.getElem?_toList]
  by_cases h : start + i < stop ∧ start + i < src.tokens.size
  · have h₁ : min start src.tokens.size = start := by omega
    rw [h₁, if_pos (by omega), if_pos h.1]
  · have h₂ : ¬ (i < min stop src.tokens.size - min start src.tokens.size) := by omega
    rw [if_neg h₂]
    by_cases h₃ : start + i < stop
    · rw [if_pos h₃, Array.getElem?_eq_none (by omega)]
    · rw [if_neg h₃]

/-- What is asked of a few tokens is a question about all that remain. -/
theorem comesNext_iff (src : Source) (position : Nat) (expected : List Char) :
    src.comesNext position expected = true ↔ expected <+: src.remaining position := by
  have h : src.remaining position = src.tokens.toList.drop position := by
    rw [remaining, slice_eq, size, ← Array.length_toList, List.take_length]
  rw [comesNext, beq_iff_eq, h, slice_eq, List.drop_take, List.prefix_iff_eq_take]
  rw [Nat.add_sub_cancel_left, eq_comm]

/-- What is asked of a few tokens is a question about all that went before. -/
theorem endsWith_iff {src : Source} {start position : Nat} (h₁ : start ≤ position)
    (h₂ : position ≤ src.size) (expected : List Char) :
    src.endsWith start position expected = true ↔ expected <:+ src.slice start position := by
  have hl : (src.slice start position).length = position - start := by
    simp only [slice_eq, List.length_drop, List.length_take, Array.length_toList]
    simp only [size] at h₂
    omega
  have hd : start + expected.length ≤ position →
      (src.slice start position).drop (position - start - expected.length) =
        src.slice (position - expected.length) position := by
    intro h
    rw [slice_eq, slice_eq, List.drop_drop]
    congr 1
    omega
  simp only [endsWith, Bool.and_eq_true, decide_eq_true_eq, beq_iff_eq]
  rw [List.suffix_iff_eq_drop, hl]
  constructor
  · rintro ⟨h, he⟩
    rw [hd h, he]
  · intro he
    have h := congrArg List.length he
    rw [List.length_drop, hl] at h
    have hle : start + expected.length ≤ position := by omega
    exact ⟨hle, by rw [← hd hle, ← he]⟩

end Source

end ConcreteSyntax
