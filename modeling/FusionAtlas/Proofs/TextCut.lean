import FusionAtlas.Text.Basic

/-!
Cuts of a text. An offset at which a character ends is a place to cut, and between two such offsets
stands a piece of the text. Main statements: `Text.slice?_append`, `Text.IsBoundary.slice?`, and
`Text.StandsAt.within` for a piece of a piece.
-/

set_option autoImplicit false
set_option relaxedAutoImplicit false

namespace FusionAtlas.Text

variable {text front behind : List Char} {n m : Nat}

@[simp] theorem byteSize_append (front behind : List Char) :
    byteSize (front ++ behind) = byteSize front + byteSize behind := by
  induction front with
  | nil => simp [byteSize]
  | cons c front ih =>
    rw [List.cons_append, byteSize, byteSize, ih]
    omega

theorem byteSize_pos {c : Char} : 0 < byteSize (c :: text) := by
  have size := c.utf8Size_pos
  rw [byteSize]
  omega

theorem dropBytes_append (front behind : List Char) :
    dropBytes (front ++ behind) (byteSize front) = some behind := by
  induction front with
  | nil => cases behind <;> simp [dropBytes, byteSize]
  | cons c front ih =>
    have size := c.utf8Size_pos
    rw [List.cons_append, dropBytes, byteSize, if_neg (by omega), if_pos (by omega),
      Nat.add_sub_cancel_left, ih]

theorem takeBytes_append (front behind : List Char) :
    takeBytes (front ++ behind) (byteSize front) = some front := by
  induction front with
  | nil => cases behind <;> simp [takeBytes, byteSize]
  | cons c front ih =>
    have size := c.utf8Size_pos
    rw [List.cons_append, takeBytes, byteSize, if_neg (by omega), if_pos (by omega),
      Nat.add_sub_cancel_left, ih, Option.map_some]

/-- A piece of a text stands between the size of what is before it and that plus its own size. -/
theorem slice?_append (front piece behind : List Char) :
    slice? (front ++ piece ++ behind) (byteSize front) (byteSize front + byteSize piece) =
      some piece := by
  rw [slice?, List.append_assoc, dropBytes_append, Option.bind_some, Nat.add_sub_cancel_left,
    takeBytes_append]

/-- Some character ends at the offset, or the text starts there. -/
def IsBoundary (text : List Char) (n : Nat) : Prop :=
  ∃ front behind, text = front ++ behind ∧ byteSize front = n

namespace IsBoundary

theorem zero (text : List Char) : IsBoundary text 0 := ⟨[], text, rfl, rfl⟩

theorem size (text : List Char) : IsBoundary text (byteSize text) :=
  ⟨text, [], (List.append_nil text).symm, rfl⟩

theorem le_size (boundary : IsBoundary text n) : n ≤ byteSize text := by
  obtain ⟨front, behind, rfl, rfl⟩ := boundary
  rw [byteSize_append]
  omega

/-- The text up to the later of two places to cut goes on from the text up to the earlier one. -/
theorem split (start : IsBoundary text n) (stop : IsBoundary text m) (le : n ≤ m) :
    ∃ front piece behind, text = front ++ piece ++ behind ∧ byteSize front = n ∧
      byteSize (front ++ piece) = m := by
  obtain ⟨front, behind, whole, rfl⟩ := start
  obtain ⟨longer, rest, again, rfl⟩ := stop
  have before : front <+: text := whole ▸ List.prefix_append front behind
  have further : longer <+: text := again ▸ List.prefix_append longer rest
  rcases List.prefix_or_prefix_of_prefix before further with inside | inside
  · obtain ⟨piece, rfl⟩ := inside
    exact ⟨front, piece, rest, again, rfl, rfl⟩
  · obtain ⟨piece, rfl⟩ := inside
    cases piece with
    | nil => exact ⟨longer, [], rest, by simpa using again, by simp, by simp⟩
    | cons c piece =>
      have size : 0 < byteSize (c :: piece) := byteSize_pos
      rw [byteSize_append] at le
      omega

/-- Between two places to cut stands a piece of the text. -/
theorem slice? (start : IsBoundary text n) (stop : IsBoundary text m) (le : n ≤ m) :
    ∃ piece, Text.slice? text n m = some piece := by
  obtain ⟨front, piece, behind, rfl, rfl, rfl⟩ := start.split stop le
  refine ⟨piece, ?_⟩
  rw [byteSize_append]
  exact slice?_append front piece behind

/-- A piece that starts at a place to cut ends at one. -/
theorem add (start : IsBoundary text n) {piece more : List Char}
    (behind : dropBytes text n = some (piece ++ more)) : IsBoundary text (n + byteSize piece) := by
  obtain ⟨front, rest, rfl, rfl⟩ := start
  rw [dropBytes_append] at behind
  obtain rfl := Option.some.inj behind
  exact ⟨front ++ piece, more, (List.append_assoc ..).symm, byteSize_append front piece⟩

theorem dropBytes (start : IsBoundary text n) : ∃ rest, Text.dropBytes text n = some rest := by
  obtain ⟨front, rest, rfl, rfl⟩ := start
  exact ⟨rest, dropBytes_append front rest⟩

end IsBoundary

/-- The piece is what the text has from the offset on, as far as it goes. -/
def StandsAt (text piece : List Char) (n : Nat) : Prop :=
  ∃ front behind, text = front ++ piece ++ behind ∧ byteSize front = n

namespace StandsAt

variable {piece inner : List Char}

theorem of_slice? (start : IsBoundary text n) (stop : IsBoundary text m) (le : n ≤ m)
    (found : Text.slice? text n m = some piece) : StandsAt text piece n := by
  obtain ⟨front, middle, behind, rfl, rfl, rfl⟩ := start.split stop le
  rw [byteSize_append, slice?_append] at found
  obtain rfl := Option.some.inj found
  exact ⟨front, behind, rfl, rfl⟩

theorem stop_of_slice? (start : IsBoundary text n) (stop : IsBoundary text m) (le : n ≤ m)
    (found : Text.slice? text n m = some piece) : m = n + byteSize piece := by
  obtain ⟨front, middle, behind, rfl, rfl, rfl⟩ := start.split stop le
  rw [byteSize_append, slice?_append] at found
  rw [byteSize_append, Option.some.inj found]

theorem start (stands : StandsAt text piece n) : IsBoundary text n := by
  obtain ⟨front, behind, rfl, rfl⟩ := stands
  exact ⟨front, piece ++ behind, List.append_assoc .., rfl⟩

theorem stop (stands : StandsAt text piece n) : IsBoundary text (n + byteSize piece) := by
  obtain ⟨front, behind, rfl, rfl⟩ := stands
  exact ⟨front ++ piece, behind, rfl, byteSize_append front piece⟩

theorem slice? (stands : StandsAt text piece n) :
    Text.slice? text n (n + byteSize piece) = some piece := by
  obtain ⟨front, behind, rfl, rfl⟩ := stands
  exact slice?_append front piece behind

theorem slice (stands : StandsAt text piece n) : Text.slice text n (n + byteSize piece) = piece := by
  rw [Text.slice, stands.slice?]
  rfl

/-- Two pieces of which one ends where the other starts are one piece. -/
theorem append {more : List Char} (first : StandsAt text piece n)
    (second : StandsAt text more (n + byteSize piece)) : StandsAt text (piece ++ more) n := by
  obtain ⟨front, behind, whole, rfl⟩ := first
  obtain ⟨longer, rest, again, size⟩ := second
  have left : Text.dropBytes text (byteSize longer) = some behind := by
    rw [size, ← byteSize_append, whole, dropBytes_append]
  rw [again, List.append_assoc, dropBytes_append] at left
  obtain rfl := Option.some.inj left
  refine ⟨front, rest, ?_, rfl⟩
  rw [whole]
  simp only [List.append_assoc]

/-- Of two pieces that start at one place the shorter begins the longer. -/
theorem isPrefix (longer : StandsAt text piece n) (shorter : StandsAt text inner n)
    (le : byteSize inner ≤ byteSize piece) : inner <+: piece := by
  obtain ⟨front, behind, rfl, rfl⟩ := longer
  obtain ⟨other, rest, whole, size⟩ := shorter
  have left := dropBytes_append front (piece ++ behind)
  rw [← List.append_assoc, ← size, whole, List.append_assoc, dropBytes_append] at left
  have same : inner ++ rest = piece ++ behind := Option.some.inj left
  rcases List.prefix_or_prefix_of_prefix (same ▸ List.prefix_append inner rest)
    (List.prefix_append piece behind) with inside | ⟨more, rfl⟩
  · exact inside
  · cases more with
    | nil => simp
    | cons c more =>
      have size : 0 < byteSize (c :: more) := byteSize_pos
      rw [byteSize_append] at le
      omega

/-- What stands in a piece stands in the text, further on by where the piece starts. -/
theorem within (outer : StandsAt text piece n) (inside : StandsAt piece inner m) :
    StandsAt text inner (n + m) := by
  obtain ⟨front, behind, rfl, rfl⟩ := outer
  obtain ⟨lead, rest, rfl, rfl⟩ := inside
  refine ⟨front ++ lead, rest ++ behind, ?_, byteSize_append front lead⟩
  simp only [List.append_assoc]

end StandsAt

end FusionAtlas.Text
