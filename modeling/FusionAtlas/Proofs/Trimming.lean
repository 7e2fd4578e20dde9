import FusionAtlas.Proofs.Text

/-!
Texts without the blanks around them. Main statements: `Text.trimEnd_append`, by which trimming the end of a
text stops at a character that is no blank, and `Text.trim_eq`, by which it does not matter which end is
trimmed first.
-/

set_option autoImplicit false
set_option relaxedAutoImplicit false

namespace FusionAtlas.Text

variable {text blanks rest : List Char}

theorem trimStart_append (rest : List Char) (blank : ∀ c ∈ blanks, isBlank c = true) :
    trimStart (blanks ++ rest) = trimStart rest :=
  List.dropWhile_append_of_pos blank

theorem trimStart_eq_nil_iff : trimStart text = [] ↔ ∀ c ∈ text, isBlank c = true :=
  List.dropWhile_eq_nil_iff

theorem length_trimStart_le (text : List Char) : (trimStart text).length ≤ text.length :=
  (List.dropWhile_sublist _).length_le

theorem trimStart_of_solid {text : List Char} (solid : ∀ c ∈ text.head?, isBlank c = false) :
    trimStart text = text := by
  cases text with
  | nil => rfl
  | cons c text => simp [trimStart, solid c rfl]

/-- Blanks are taken away up to a character that is none. -/
theorem trimStart_append_cons (text : List Char) {c : Char} (solid : isBlank c = false)
    (rest : List Char) : trimStart (text ++ c :: rest) = trimStart text ++ c :: rest := by
  rw [trimStart, trimStart, List.dropWhile_append]
  split
  · next none => rw [List.isEmpty_iff.mp none, List.dropWhile_cons_of_neg (by simp [solid]), List.nil_append]
  · rfl

/-- The blanks at the start of a text are what trimming takes away. -/
theorem exists_eq_append_trimStart (text : List Char) :
    ∃ blanks, text = blanks ++ trimStart text ∧ ∀ c ∈ blanks, isBlank c = true :=
  ⟨text.takeWhile isBlank, List.takeWhile_append_dropWhile.symm, fun _ member =>
    List.mem_takeWhile_imp member⟩

/-- The blanks at the end of a text are what trimming takes away. -/
theorem exists_eq_trimEnd_append (text : List Char) :
    ∃ blanks, text = trimEnd text ++ blanks ∧ ∀ c ∈ blanks, isBlank c = true := by
  refine ⟨(text.reverse.takeWhile isBlank).reverse, ?_, fun c member => ?_⟩
  · rw [trimEnd, dropEndWhile, ← List.reverse_append, List.takeWhile_append_dropWhile,
      List.reverse_reverse]
  · exact List.mem_takeWhile_imp (List.mem_reverse.mp member)

theorem length_trim_le (text : List Char) : (trim text).length ≤ text.length := by
  obtain ⟨blanks, whole, -⟩ := exists_eq_trimEnd_append (trimStart text)
  have size := congrArg List.length whole
  have start := length_trimStart_le text
  rw [List.length_append, ← trim] at size
  omega

theorem trimEnd_append_blanks (text : List Char) {blanks : List Char}
    (blank : ∀ c ∈ blanks, isBlank c = true) : trimEnd (text ++ blanks) = trimEnd text := by
  rw [trimEnd, dropEndWhile, List.reverse_append, List.dropWhile_append_of_pos]
  · rfl
  · exact fun c member => blank c (List.mem_reverse.mp member)

/-- The text ends in a character that is no blank. -/
def EndsSolid (text : List Char) : Prop := ∃ front c, text = front ++ [c] ∧ isBlank c = false

theorem EndsSolid.trimEnd {text : List Char} (solid : EndsSolid text) : trimEnd text = text := by
  obtain ⟨front, c, rfl, other⟩ := solid
  simp [Text.trimEnd, dropEndWhile, other]

theorem EndsSolid.append (front : List Char) {text : List Char} (solid : EndsSolid text) :
    EndsSolid (front ++ text) := by
  obtain ⟨start, c, rfl, other⟩ := solid
  exact ⟨front ++ start, c, (List.append_assoc ..).symm, other⟩

theorem trimEnd_eq_nil_or_endsSolid (text : List Char) : trimEnd text = [] ∨ EndsSolid (trimEnd text) := by
  have ends := List.head?_dropWhile_not isBlank text.reverse
  rw [trimEnd, dropEndWhile]
  cases reversed : text.reverse.dropWhile isBlank with
  | nil => exact Or.inl rfl
  | cons last front =>
    rw [reversed] at ends
    exact Or.inr ⟨front.reverse, last, by simp, by simpa using ends⟩

theorem endsSolid_of_trim {text : List Char} (written : text ≠ []) (trimmed : trim text = text) :
    EndsSolid text := by
  rcases trimEnd_eq_nil_or_endsSolid (trimStart text) with none | solid
  · exact absurd (trimmed.symm.trans none) written
  · exact trimmed ▸ solid

/-- Trimming ends within a text that is not blank. -/
theorem trimEnd_append_of_endsSolid (front : List Char) (solid : EndsSolid (trimEnd text)) :
    trimEnd (front ++ text) = front ++ trimEnd text := by
  obtain ⟨blanks, whole, blank⟩ := exists_eq_trimEnd_append text
  calc trimEnd (front ++ text) = trimEnd (front ++ trimEnd text ++ blanks) := by
        rw [List.append_assoc, ← whole]
    _ = front ++ trimEnd text := by rw [trimEnd_append_blanks _ blank, (solid.append front).trimEnd]

/-- Only what stands behind a character that is no blank is trimmed. -/
theorem trimEnd_append {front : List Char} (solid : EndsSolid front) (rest : List Char) :
    trimEnd (front ++ rest) = front ++ trimEnd rest := by
  rcases trimEnd_eq_nil_or_endsSolid rest with none | ends
  · obtain ⟨blanks, whole, blank⟩ := exists_eq_trimEnd_append rest
    rw [none, List.nil_append] at whole
    rw [none, whole, trimEnd_append_blanks front blank, solid.trimEnd, List.append_nil]
  · exact trimEnd_append_of_endsSolid front ends

theorem EndsSolid.trimStart_append (solid : EndsSolid text) (rest : List Char) :
    trimStart (text ++ rest) = trimStart text ++ rest := by
  obtain ⟨front, last, rfl, other⟩ := solid
  have some_left : List.dropWhile isBlank (front ++ [last]) ≠ [] := by
    rw [ne_eq, List.dropWhile_eq_nil_iff]
    intro all
    rw [all last (by simp)] at other
    cases other
  rw [trimStart, List.dropWhile_append, if_neg (by simpa using some_left), ← trimStart]

theorem EndsSolid.trimStart (solid : EndsSolid text) : EndsSolid (trimStart text) := by
  obtain ⟨front, last, rfl, other⟩ := solid
  rw [Text.trimStart, List.dropWhile_append]
  split
  · exact ⟨[], last, by simp [other], other⟩
  · exact ⟨_, last, rfl, other⟩

/-- Both ends may be trimmed in either order. -/
theorem trim_eq (text : List Char) : trim text = trimStart (trimEnd text) := by
  obtain ⟨blanks, whole, blank⟩ := exists_eq_trimEnd_append text
  rw [trim]
  rcases trimEnd_eq_nil_or_endsSolid text with none | solid
  · rw [none, List.nil_append] at whole
    have all : trimStart text = [] := trimStart_eq_nil_iff.mpr (by rwa [whole])
    rw [all, none]
    rfl
  · calc trimEnd (trimStart text) = trimEnd (trimStart (trimEnd text) ++ blanks) := by
          rw [← solid.trimStart_append, ← whole]
      _ = trimStart (trimEnd text) := by
          rw [trimEnd_append_blanks _ blank, solid.trimStart.trimEnd]

theorem trim_append_blanks (text : List Char) (blank : ∀ c ∈ blanks, isBlank c = true) :
    trim (text ++ blanks) = trim text := by
  rw [trim_eq, trimEnd_append_blanks text blank, ← trim_eq]

theorem trim_append (rest : List Char) (blank : ∀ c ∈ blanks, isBlank c = true) :
    trim (blanks ++ rest) = trim rest := by
  rw [trim, trimStart_append rest blank, ← trim]

/-- Trimming finds the part of a text that has blanks around it and none at its own ends. -/
theorem trim_eq_iff {core : List Char} :
    trim text = core ↔ ∃ before after, text = before ++ core ++ after ∧
      (∀ c ∈ before, isBlank c = true) ∧ (∀ c ∈ after, isBlank c = true) ∧
      (∀ c ∈ core.head?, isBlank c = false) ∧ ∀ c ∈ core.getLast?, isBlank c = false := by
  constructor
  · rintro rfl
    obtain ⟨before, start, blankBefore⟩ := exists_eq_append_trimStart text
    obtain ⟨after, stop, blankAfter⟩ := exists_eq_trimEnd_append (trimStart text)
    rw [← trim] at stop
    refine ⟨before, after, by rw [List.append_assoc, ← stop, ← start], blankBefore, blankAfter, ?_, ?_⟩
    · intro c first
      have none := List.head?_dropWhile_not isBlank (trimEnd text)
      rw [← trimStart, ← trim_eq, show (trim text).head? = some c from first] at none
      simpa using none
    · intro c last
      rcases trimEnd_eq_nil_or_endsSolid (trimStart text) with none | ⟨front, d, ends, solid⟩
      · rw [trim, none] at last
        cases last
      · rw [trim, ends, List.getLast?_concat] at last
        exact Option.some.inj last ▸ solid
  · rintro ⟨before, after, rfl, blankBefore, blankAfter, first, last⟩
    rw [trim_append_blanks _ blankAfter, trim_append _ blankBefore, trim, trimStart_of_solid first]
    rcases List.eq_nil_or_concat core with rfl | ⟨front, c, rfl⟩
    · rfl
    · exact EndsSolid.trimEnd ⟨front, c, List.concat_eq_append, last c (by simp)⟩

end FusionAtlas.Text
