import FusionAtlas.Proofs.LineIndex

/-!
Reading order. Of two places between characters the later one is on a later line or further on in the
same line, so offsets and positions are ordered alike, and a span holds a position just if its range holds
the offset. Main statements: `LineIndex.before_position_iff` and `LineIndex.contains_span`.
-/

set_option autoImplicit false
set_option relaxedAutoImplicit false

namespace FusionAtlas

open FusionAtlas.Text (IsBoundary afterLast byteSize byteSize_append)

namespace Position

variable {p q : Position}

/-- Strictly earlier in reading order. -/
def Before (p q : Position) : Prop := p.line < q.line ∨ p.line = q.line ∧ p.column < q.column

instance (p q : Position) : Decidable (Before p q) := inferInstanceAs (Decidable (_ ∨ _))

theorem le_eq_true_iff : p.le q = true ↔ ¬q.Before p := by
  simp only [le, Before, Bool.or_eq_true, Bool.and_eq_true, decide_eq_true_eq, beq_iff_eq]
  omega

theorem Before.irrefl (p : Position) : ¬p.Before p := by
  simp [Before]

theorem Before.asymm (before : p.Before q) : ¬q.Before p := by
  unfold Before at before ⊢
  omega

end Position

namespace LineIndex

variable {text : String} {a b offset : Nat} {range : ByteRange}

/-- A newline on the way leads to a later line, and any other characters further on in the line. -/
theorem before_position_append {front piece behind : List Char}
    (cut : text.toList = front ++ piece ++ behind) (some : piece ≠ []) :
    ((ofText text).position (byteSize front)).Before
      ((ofText text).position (byteSize (front ++ piece))) := by
  have start := position_append (cut.trans (List.append_assoc front piece behind))
  have stop := position_append cut
  rw [start, stop, Position.Before]
  by_cases newline : '\n' ∈ piece
  · have counted : 0 < piece.count '\n' := List.count_pos_iff.mpr newline
    left
    simp only [List.count_append]
    omega
  · have counted : piece.count '\n' = 0 := List.count_eq_zero.mpr newline
    have length : 0 < piece.length := List.length_pos_iff.mpr some
    right
    simp only [List.count_append, Text.afterLast_append front newline, List.length_append]
    omega

theorem before_position_of_lt (first : IsBoundary text.toList a) (second : IsBoundary text.toList b)
    (lt : a < b) : ((ofText text).position a).Before ((ofText text).position b) := by
  obtain ⟨front, piece, behind, cut, rfl, rfl⟩ := first.split second (Nat.le_of_lt lt)
  apply before_position_append cut
  rintro rfl
  simp at lt

/-- Positions are in reading order as their offsets are in the text. -/
theorem before_position_iff (first : IsBoundary text.toList a) (second : IsBoundary text.toList b) :
    ((ofText text).position a).Before ((ofText text).position b) ↔ a < b := by
  refine ⟨fun before => ?_, before_position_of_lt first second⟩
  by_contra late
  rcases Nat.lt_or_eq_of_le (Nat.le_of_not_lt late) with lt | rfl
  · exact before.asymm (before_position_of_lt second first lt)
  · exact Position.Before.irrefl _ before

/-- A span holds a position just if its range touches the offset. This is so since positions grow with
offsets, from one end of a character to the next. -/
theorem contains_span (start : IsBoundary text.toList range.start)
    (stop : IsBoundary text.toList range.stop) (here : IsBoundary text.toList offset) :
    ((ofText text).span range).contains ((ofText text).position offset) = range.touches offset ∧
      ∀ a b, IsBoundary text.toList a → IsBoundary text.toList b →
        (((ofText text).position a).Before ((ofText text).position b) ↔ a < b) := by
  refine ⟨?_, fun a b first second => before_position_iff first second⟩
  rw [Bool.eq_iff_iff]
  simp only [Span.contains, span, ByteRange.touches, Bool.and_eq_true, decide_eq_true_eq,
    Position.le_eq_true_iff, before_position_iff here start, before_position_iff stop here]
  omega

/-- The place behind a letter of two bytes lies at the end of a range over two lines, the place behind the
next one does not. -/
theorem contains_span_ends :
    ((ofText "a\nä b").span ⟨1, 4⟩).contains ((ofText "a\nä b").position 4) = true ∧
      ((ofText "a\nä b").span ⟨1, 4⟩).contains ((ofText "a\nä b").position 5) = false := by
  have cut (front behind : List Char) (whole : "a\nä b".toList = front ++ behind) :
      IsBoundary "a\nä b".toList (byteSize front) := ⟨front, behind, whole, rfl⟩
  have start : IsBoundary "a\nä b".toList (ByteRange.mk 1 4).start := cut ['a'] "\nä b".toList (by decide)
  have stop : IsBoundary "a\nä b".toList 4 := cut "a\nä".toList " b".toList (by decide)
  have next : IsBoundary "a\nä b".toList 5 := cut "a\nä ".toList ['b'] (by decide)
  exact ⟨(contains_span start stop stop).1, (contains_span start stop next).1⟩

end LineIndex

end FusionAtlas
