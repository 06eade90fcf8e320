import ConcreteSyntax.Proofs.Slices
import Mathlib.Data.String.Basic

/-!
# Texts of segments

An input made from a text can be cut by tokens or by bytes. Both come to the same: the table
of offsets says at which byte a token starts, so the piece of the text between two such
bytes is made of the tokens in between. No such byte lies within a character, so a text can
be cut at any of them, and pieces that meet are put together as their tokens are.
-/

namespace ConcreteSyntax.Source

variable {text : String}

theorem tokens_ofString (text : String) : (ofString text).tokens.toList = text.toList := by
  simp [ofString]

theorem size_ofString (text : String) : (ofString text).size = text.toList.length := by
  rw [size, ← Array.length_toList, tokens_ofString]

/-- The table counts the bytes of the tokens before each. -/
theorem byteOffsets_getElem? : ∀ {cs : List Char} {start i : Nat}, i ≤ cs.length →
    (byteOffsets start cs)[i]? = some (start + String.utf8Len (cs.take i))
  | [], start, 0, _ => rfl
  | c :: rest, start, 0, _ => rfl
  | c :: rest, start, i + 1, h => by
      have hrest : (byteOffsets (start + c.utf8Size) rest)[i]? =
          some (start + c.utf8Size + String.utf8Len (rest.take i)) :=
        byteOffsets_getElem? (Nat.le_of_succ_le_succ (by simpa using h))
      rw [byteOffsets, List.getElem?_cons_succ, hrest, List.take_succ_cons, String.utf8Len_cons]
      congr 1
      omega

theorem byteOffset_ofString (text : String) (i : Nat) :
    (ofString text).byteOffset i = String.utf8Len (text.toList.take i) := by
  have hclamped : text.toList.take (min i text.toList.length) = text.toList.take i := by
    rw [← List.take_take, List.take_length]
  have hoffset : (byteOffsets 0 text.toList)[min i text.toList.length]? =
      some (0 + String.utf8Len (text.toList.take (min i text.toList.length))) :=
    byteOffsets_getElem? (Nat.min_le_right i text.toList.length)
  rw [hclamped, Nat.zero_add] at hoffset
  rw [byteOffset, size_ofString, Array.getD_eq_getD_getElem?]
  simp [ofString, hoffset]

/-- **Two views of an input.** The piece of the text that a segment covers is made of the
tokens it covers. -/
theorem textOf_ofString (text : String) (seg : Segment) :
    (ofString text).textOf seg = String.ofList ((ofString text).window seg) := by
  obtain ⟨p, n⟩ := seg
  have hbefore : text.toList.take p = (text.toList.take (p + n)).take p := by
    rw [List.take_take, Nat.min_eq_left (Nat.le_add_right p n)]
  have hwindow : (ofString text).window ⟨p, n⟩ = (text.toList.take (p + n)).drop p := by
    rw [window, slice_eq, tokens_ofString, Segment.stop]
  have hsplit : text.toList.take p ++ (ofString text).window ⟨p, n⟩ = text.toList.take (p + n) := by
    rw [hbefore, hwindow, List.take_append_drop]
  have hbytes : (ofString text).byteOffset (p + n) = String.utf8Len (text.toList.take p) +
      String.utf8Len ((ofString text).window ⟨p, n⟩) := by
    rw [byteOffset_ofString, ← hsplit, String.utf8Len_append]
  have htext : text = String.ofList
      (text.toList.take p ++ (ofString text).window ⟨p, n⟩ ++ text.toList.drop (p + n)) := by
    rw [hsplit, List.take_append_drop, String.ofList_toList]
  have hpiece := String.extract_of_valid (text.toList.take p) ((ofString text).window ⟨p, n⟩)
    (text.toList.drop (p + n))
  rw [← htext, ← hbytes, ← byteOffset_ofString] at hpiece
  exact hpiece

/-- The texts of segments that meet. -/
theorem textOf_append (text : String) (p n m : Nat) :
    (ofString text).textOf ⟨p, n + m⟩ =
      (ofString text).textOf ⟨p, n⟩ ++ (ofString text).textOf ⟨p + n, m⟩ := by
  have hmeet : (ofString text).window ⟨p, n + m⟩ =
      (ofString text).window ⟨p, n⟩ ++ (ofString text).window ⟨p + n, m⟩ := by
    simp only [window, Segment.stop]
    rw [← Nat.add_assoc]
    exact slice_append (Nat.le_add_right p n) (Nat.le_add_right _ m)
  rw [textOf_ofString, textOf_ofString, textOf_ofString, hmeet, String.ofList_append]

/-! ## The table of offsets -/

theorem length_byteOffsets (start : Nat) (cs : List Char) :
    (byteOffsets start cs).length = cs.length + 1 := by
  induction cs generalizing start with
  | nil => rfl
  | cons c rest ih => rw [byteOffsets, List.length_cons, List.length_cons, ih]

/-- There is an offset for every token and one for the end. -/
theorem size_offsets (text : String) :
    (ofString text).offsets.size = (ofString text).size + 1 := by
  rw [size_ofString, ← Array.length_toList]
  exact length_byteOffsets 0 text.toList

/-- Every offset is a place between two characters of the text, or one of its ends. -/
theorem isValid_byteOffset (text : String) (i : Nat) :
    String.Pos.Raw.IsValid text ⟨(ofString text).byteOffset i⟩ := by
  rw [String.Pos.Raw.isValid_iff_exists_append]
  refine ⟨String.ofList (text.toList.take i), String.ofList (text.toList.drop i), ?_, ?_⟩
  · rw [← String.ofList_append, List.take_append_drop, String.ofList_toList]
  · rw [String.rawEndPos_ofList, byteOffset_ofString]

/-- Later tokens start at later bytes. -/
theorem byteOffset_mono (text : String) {i j : Nat} (h : i ≤ j) :
    (ofString text).byteOffset i ≤ (ofString text).byteOffset j := by
  rw [byteOffset_ofString, byteOffset_ofString]
  exact String.utf8Len_le_of_prefix (List.take_prefix_take_left h)

/-- The tokens of a segment are those between its ends, each clamped to the end of the input. -/
theorem window_ofString (text : String) (s : Segment) :
    (ofString text).window s =
      (text.toList.take (min s.stop text.length)).drop (min s.offset text.length) := by
  have hlength : text.toList.length = text.length := String.length_toList
  rw [window, slice, Array.toList_extract, tokens_ofString, size_ofString, hlength,
    List.extract_eq_take_drop, List.drop_take]

/-- Segments that meet, joined. -/
theorem textOf_join (text : String) {s t : Segment} (h : s.stop = t.offset) :
    (ofString text).textOf (s.join t) = (ofString text).textOf s ++ (ofString text).textOf t := by
  obtain ⟨p, n⟩ := s
  obtain ⟨q, m⟩ := t
  obtain rfl : p + n = q := h
  have hjoin : Segment.join ⟨p, n⟩ ⟨p + n, m⟩ = ⟨p, n + m⟩ := by
    simp only [Segment.join, Segment.stop, Segment.mk.injEq]
    omega
  rw [hjoin, textOf_append]

/-- **Texts and tokens.** Every input has an offset for each position within it. The offsets of
a segment's ends, wherever the segment lies, are in order and do not split a character of the
text. What is cut out there is made of the tokens of the segment: of the characters of the text
from its offset up to its stop, each clamped to the end. Segments that meet have texts that
together are the text of their join. -/
theorem texts_match_tokens (text : String) (s : Segment) :
    (∀ i, min i (ofString text).size < (ofString text).offsets.size) ∧
      String.Pos.Raw.IsValid text ⟨(ofString text).byteOffset s.offset⟩ ∧
      String.Pos.Raw.IsValid text ⟨(ofString text).byteOffset s.stop⟩ ∧
      (ofString text).byteOffset s.offset ≤ (ofString text).byteOffset s.stop ∧
      ((ofString text).textOf s).toList = (ofString text).window s ∧
      (ofString text).window s =
        (text.toList.take (min s.stop text.length)).drop (min s.offset text.length) ∧
      ∀ t : Segment, s.stop = t.offset → (ofString text).textOf (s.join t) =
        (ofString text).textOf s ++ (ofString text).textOf t := by
  have hends : s.offset ≤ s.stop := Nat.le_add_right s.offset s.count
  refine ⟨fun i => ?_, isValid_byteOffset text _, isValid_byteOffset text _,
    byteOffset_mono text hends, ?_, window_ofString text s,
    fun t ht => textOf_join text ht⟩
  · rw [size_offsets]
    exact Nat.lt_succ_of_le (Nat.min_le_right i _)
  · rw [textOf_ofString, String.toList_ofList]

/-- A letter of two bytes and what follows it; the second segment goes beyond the end. -/
theorem texts_match_tokens_lambda :
    (⟨1, 2⟩ : Segment).stop = (⟨3, 10⟩ : Segment).offset ∧
      (ofString "aλb\nc").textOf (Segment.join ⟨1, 2⟩ ⟨3, 10⟩) =
        (ofString "aλb\nc").textOf ⟨1, 2⟩ ++ (ofString "aλb\nc").textOf ⟨3, 10⟩ ∧
      ((ofString "aλb\nc").textOf ⟨1, 2⟩).toList = ['λ', 'b'] := by
  obtain ⟨-, -, -, -, htokens, hwindow, hjoin⟩ := texts_match_tokens "aλb\nc" ⟨1, 2⟩
  exact ⟨rfl, hjoin ⟨3, 10⟩ rfl, htokens.trans (hwindow.trans (by decide))⟩

end ConcreteSyntax.Source
