import FusionAtlas.Proofs.Text
import FusionAtlas.Proofs.TextCut
import FusionAtlas.Text.LineIndex
import Mathlib.Data.List.TakeWhile

/-!
Lines of a text and places in it. Each place between two characters has a line, the number of newlines
before it, and a column, the number of characters since the last of them; from these it is found again.
Main statements: `LineIndex.position_append`, `LineIndex.offset?_of_getElem?` and
`LineIndex.position_offset?`.
-/

set_option autoImplicit false
set_option relaxedAutoImplicit false

namespace FusionAtlas

open FusionAtlas.Text (afterLast byteSize byteSize_append takeBytes_append)

namespace Line

variable {line : Line} {column : Nat}

theorem byteSize_of_isAscii {text : List Char} (ascii : text.all (fun c => c.toNat < 0x80) = true) :
    byteSize text = text.length := by
  induction text with
  | nil => rfl
  | cons c text ih =>
    simp only [List.all_cons, Bool.and_eq_true, decide_eq_true_eq] at ascii
    have one : c.utf8Size = 1 := Char.utf8Size_eq_one_iff.mpr (UInt32.le_iff_toNat_le.mpr (by
      have small : c.val.toNat < 0x80 := ascii.1
      change c.val.toNat ≤ 0x7F
      omega))
    have rest := ih ascii.2
    rw [byteSize, one, rest, List.length_cons]
    omega

theorem isAscii_of_append {front behind : List Char} (text : line.text = front ++ behind)
    (ascii : line.isAscii = true) : front.all (fun c => c.toNat < 0x80) = true := by
  rw [isAscii, text, List.all_append, Bool.and_eq_true] at ascii
  exact ascii.1

/-- Either way of counting gives the number of characters before a place on the line. -/
theorem column_append {front behind : List Char} (text : line.text = front ++ behind) :
    line.column (line.start + byteSize front) = front.length := by
  have passed : line.start + byteSize front - line.start = byteSize front := by omega
  by_cases ascii : line.isAscii = true
  · have size := byteSize_of_isAscii (isAscii_of_append text ascii)
    simp [column, ascii, size]
  · rw [column, if_neg ascii, passed, columnOf, text, takeBytes_append]
    rfl

/-- Either way of counting finds the place behind that many characters of the line, as long as the line
ends within 32 bits. -/
theorem offset_eq (short : line.stop ≤ maxOffset) :
    line.offset column = line.start + byteSize (line.text.take column) := by
  by_cases ascii : line.isAscii = true
  · have whole : byteSize line.text = line.text.length := byteSize_of_isAscii ascii
    have parts : line.text = line.text.take column ++ line.text.drop column :=
      (List.take_append_drop column line.text).symm
    have taken : byteSize (line.text.take column) = min column line.text.length := by
      rw [byteSize_of_isAscii (isAscii_of_append parts ascii), List.length_take]
    have stop : line.stop = line.start + line.text.length := by rw [Line.stop, whole]
    rw [offset, if_pos ascii, taken, stop]
    rw [stop] at short
    omega
  · rw [offset, if_neg ascii]

end Line

namespace LineIndex

theorem start_linesFrom (start : Nat) (text : List Char) : (linesFrom start text).1.start = start := by
  cases text with
  | nil => rfl
  | cons c rest =>
    rw [linesFrom]
    split <;> rfl

/-- The last line ends where the text ends. -/
theorem stop_linesFrom (start : Nat) (text : List Char) :
    ((linesFrom start text).2.getLast?.getD (linesFrom start text).1).stop = start + byteSize text := by
  induction text generalizing start with
  | nil => rfl
  | cons c rest ih =>
    by_cases newline : c = '\n'
    · subst newline
      have below := ih (start + 1)
      have size : byteSize ('\n' :: rest) = 1 + byteSize rest := rfl
      simp only [linesFrom, if_true, List.getLast?_cons, Option.getD_some, below, size]
      omega
    · have here := ih (start + c.utf8Size)
      have size : byteSize (c :: rest) = c.utf8Size + byteSize rest := rfl
      simp only [linesFrom, if_neg newline]
      cases others : (linesFrom (start + c.utf8Size) rest).2.getLast? with
      | some last =>
        rw [others, Option.getD_some] at here
        rw [Option.getD_some, here, size]
        omega
      | none =>
        rw [others, Option.getD_none, Line.stop, start_linesFrom] at here
        change start + byteSize (c :: (linesFrom (start + c.utf8Size) rest).1.text) = _
        rw [byteSize, size]
        omega

@[simp] theorem size_ofText (text : String) : (ofText text).size = byteSize text.toList := by
  have last := stop_linesFrom 0 text.toList
  rwa [Nat.zero_add] at last

/-- The lines are what stands between newlines. -/
theorem map_text_linesFrom (start : Nat) (text : List Char) :
    ((linesFrom start text).1 :: (linesFrom start text).2).map Line.text = text.splitOn '\n' := by
  induction text generalizing start with
  | nil => rfl
  | cons c rest ih =>
    rw [List.splitOn_eq_splitOnP, List.splitOnP_cons_eq_if_modifyHead, ← List.splitOn_eq_splitOnP]
    by_cases newline : c = '\n'
    · have below := ih (start + 1)
      simp only [linesFrom, newline, if_true, List.map_cons, beq_self_eq_true] at below ⊢
      rw [below]
    · have here := ih (start + c.utf8Size)
      have other : (c == '\n') = false := beq_eq_false_iff_ne.mpr newline
      simp only [linesFrom, newline, other, if_false, List.map_cons, Bool.false_eq_true] at here ⊢
      rw [← here, List.modifyHead_cons]

theorem lineCount_ofText (text : String) : (ofText text).lineCount = (text.toList.splitOn '\n').length := by
  rw [← map_text_linesFrom 0, List.length_map, List.length_cons]
  rfl

theorem le_fst_lineAt (offset number : Nat) (line : Line) (others : List Line) :
    number ≤ (lineAt offset number line others).1 := by
  induction others generalizing number line with
  | nil => exact Nat.le_refl number
  | cons next others ih =>
    rw [lineAt]
    split
    · have further := ih (number + 1) next
      omega
    · exact Nat.le_refl number

/-- The line told has the number told. -/
theorem getElem?_lineAt {offset number n : Nat} {line found : Line} {others : List Line}
    (told : lineAt offset number line others = (n, found)) :
    (line :: others)[n - number]? = some found := by
  induction others generalizing number line with
  | nil =>
    obtain ⟨rfl, rfl⟩ := Prod.mk.inj told
    rw [Nat.sub_self]
    rfl
  | cons next others ih =>
    rw [lineAt] at told
    split at told
    · have further := le_fst_lineAt offset (number + 1) next others
      rw [told] at further
      have step : n - number = n - (number + 1) + 1 := by omega
      rw [step, List.getElem?_cons_succ]
      exact ih told
    · obtain ⟨rfl, rfl⟩ := Prod.mk.inj told
      rw [Nat.sub_self]
      rfl

/-- Whether the offset is on the first line depends only on the lines behind it. -/
theorem lineAt_eq (offset number : Nat) (line other : Line) (others : List Line) :
    lineAt offset number line others =
      if (lineAt offset number other others).1 = number then (number, line)
      else lineAt offset number other others := by
  cases others with
  | nil => simp [lineAt]
  | cons next others =>
    rw [lineAt, lineAt]
    by_cases reached : next.start ≤ offset
    · have further := le_fst_lineAt offset (number + 1) next others
      rw [if_pos reached, if_pos reached, if_neg (by omega)]
    · rw [if_neg reached, if_neg reached, if_pos rfl]

/-- The lines behind the first one start behind it. -/
theorem lt_start_of_mem_head? {start : Nat} {text : List Char} {next : Line}
    (second : next ∈ (linesFrom start text).2.head?) : start < next.start := by
  induction text generalizing start with
  | nil => cases second
  | cons c rest ih =>
    by_cases newline : c = '\n'
    · have first := start_linesFrom (start + 1) rest
      simp only [linesFrom, newline, if_true, List.head?_cons, Option.mem_some_iff] at second
      rw [← second, first]
      omega
    · simp only [linesFrom, newline, if_false] at second
      have later := ih second
      omega

theorem text_linesFrom (start : Nat) (text : List Char) :
    (linesFrom start text).1.text = text.takeWhile (· != '\n') := by
  induction text generalizing start with
  | nil => rfl
  | cons c rest ih =>
    by_cases newline : c = '\n'
    · simp [linesFrom, newline]
    · simp [linesFrom, newline, ih]

/-- The line of a place is found among the lines: as many are before it as there are newlines, and the
line goes from the last newline before the place to the next one behind it. -/
theorem lineAt_linesFrom (start number : Nat) (before after : List Char) :
    let lines := linesFrom start (before ++ after)
    ∃ line, lineAt (start + byteSize before) number lines.1 lines.2 = (number + before.count '\n', line) ∧
      line.start + byteSize (afterLast '\n' before) = start + byteSize before ∧
      line.text = afterLast '\n' before ++ after.takeWhile (· != '\n') := by
  induction before generalizing start number with
  | nil =>
    refine ⟨(linesFrom start after).1, ?_, start_linesFrom start after, text_linesFrom start after⟩
    cases others : (linesFrom start after).2 with
    | nil => simp [lineAt, others]
    | cons next more =>
      have later : start < next.start := lt_start_of_mem_head? (by rw [others, List.head?_cons]; rfl)
      have above : ¬next.start ≤ start + byteSize [] := by
        rw [byteSize]
        omega
      simp [lineAt, others, above]
  | cons c before ih =>
    by_cases newline : c = '\n'
    · subst newline
      obtain ⟨line, found, place, text⟩ := ih (start + 1) (number + 1)
      have size : start + byteSize ('\n' :: before) = start + 1 + byteSize before := by
        have one : byteSize ('\n' :: before) = 1 + byteSize before := rfl
        omega
      have reached : (linesFrom (start + 1) (before ++ after)).1.start ≤ start + 1 + byteSize before := by
        rw [start_linesFrom]
        omega
      have last : afterLast '\n' ('\n' :: before) = afterLast '\n' before := by
        rw [Text.afterLast_cons, if_pos rfl]
        split
        · rfl
        · rename_i none
          rw [Text.afterLast_of_not_mem none]
      have counted : number + ('\n' :: before).count '\n' = number + 1 + before.count '\n' := by
        rw [List.count_cons_self]
        omega
      refine ⟨line, ?_, by rw [last, place, size], by rw [last, text]⟩
      simp only [List.cons_append, linesFrom, if_true, lineAt, size, reached, counted, found]
    · let here := linesFrom (start + c.utf8Size) (before ++ after)
      obtain ⟨line, found, place, text⟩ := ih (start + c.utf8Size) number
      have size : start + byteSize (c :: before) = start + c.utf8Size + byteSize before := by
        rw [byteSize]
        omega
      have lines : linesFrom start (c :: before ++ after) = (⟨start, c :: here.1.text⟩, here.2) := by
        rw [List.cons_append, linesFrom, if_neg newline]
      have count : (c :: before).count '\n' = before.count '\n' := List.count_cons_of_ne newline
      rw [lines, Text.afterLast_cons, if_neg newline, count, size]
      simp only
      rw [lineAt_eq _ _ _ here.1, found]
      by_cases passed : '\n' ∈ before
      · -- The place is on a later line, which the character does not change.
        have positive : 0 < before.count '\n' := List.count_pos_iff.mpr passed
        rw [if_neg (by omega), if_pos passed]
        exact ⟨line, rfl, place, text⟩
      · -- The place is on the first line, which has one more character now.
        have none : before.count '\n' = 0 := List.count_eq_zero.mpr passed
        have same : line = here.1 := by
          have first := lineAt_eq (start + c.utf8Size + byteSize before) number here.1 here.1 here.2
          rw [found, if_pos (by omega)] at first
          exact (Prod.mk.inj first).2
        rw [Text.afterLast_of_not_mem passed, same] at text
        rw [if_pos (by omega), if_neg passed, none]
        refine ⟨⟨start, c :: here.1.text⟩, rfl, size, ?_⟩
        rw [text, List.cons_append]

/-- A place has as its line the number of newlines before it, and as its column the number of
characters since the last of them. -/
theorem position_append {text : String} {before after : List Char} (cut : text.toList = before ++ after) :
    (ofText text).position (byteSize before) =
      ⟨before.count '\n', (afterLast '\n' before).length⟩ := by
  obtain ⟨line, found, place, content⟩ := lineAt_linesFrom 0 0 before after
  have inside : min (byteSize before) (ofText text).size = byteSize before := by
    rw [size_ofText, cut, byteSize_append]
    omega
  rw [Nat.zero_add] at place
  simp only [Nat.zero_add] at found
  have column := line.column_append content
  rw [place] at column
  rw [position, inside]
  simp only [ofText, ofChars, cut, found, column]

/-- A line of the text starts behind as many newlines as its number says, and ends before the next one or
with the text. -/
theorem getElem?_linesFrom {start number : Nat} {text : List Char} {line : Line}
    (listed : ((linesFrom start text).1 :: (linesFrom start text).2)[number]? = some line) :
    ∃ before after, text = before ++ line.text ++ after ∧ line.start = start + byteSize before ∧
      before.count '\n' = number ∧ afterLast '\n' before = [] ∧ '\n' ∉ line.text ∧
      after.takeWhile (· != '\n') = [] := by
  induction text generalizing start number line with
  | nil =>
    cases number with
    | zero =>
      obtain rfl := Option.some.inj listed
      exact ⟨[], [], rfl, rfl, rfl, rfl, List.not_mem_nil, rfl⟩
    | succ number => cases listed
  | cons c rest ih =>
    by_cases newline : c = '\n'
    · subst newline
      rw [linesFrom, if_pos rfl] at listed
      cases number with
      | zero =>
        obtain rfl := Option.some.inj listed
        exact ⟨[], '\n' :: rest, rfl, rfl, rfl, rfl, List.not_mem_nil, rfl⟩
      | succ number =>
        obtain ⟨before, after, cut, place, count, last, single, behind⟩ := ih listed
        refine ⟨'\n' :: before, after, ?_, ?_, ?_, ?_, single, behind⟩
        · rw [cut, List.cons_append, List.cons_append]
        · have one : byteSize ('\n' :: before) = 1 + byteSize before := rfl
          omega
        · rw [List.count_cons_self, count]
        · rw [Text.afterLast_cons, if_pos rfl, last]
          split
          · rfl
          · rename_i none
            rw [← last, Text.afterLast_of_not_mem none]
    · let here := linesFrom (start + c.utf8Size) rest
      rw [linesFrom, if_neg newline] at listed
      cases number with
      | zero =>
        obtain rfl := Option.some.inj listed
        have first : (here.1 :: here.2)[0]? = some here.1 := rfl
        obtain ⟨before, after, cut, place, count, last, single, behind⟩ := ih first
        have none : '\n' ∉ before := List.count_eq_zero.mp count
        rw [Text.afterLast_of_not_mem none] at last
        subst last
        refine ⟨[], after, ?_, rfl, rfl, rfl, ?_, behind⟩
        · exact congrArg (List.cons c) cut
        · rw [List.mem_cons, not_or]
          exact ⟨Ne.symm newline, single⟩
      | succ number =>
        have later : (here.1 :: here.2)[number + 1]? = some line := listed
        obtain ⟨before, after, cut, place, count, last, single, behind⟩ := ih later
        have passed : '\n' ∈ before := List.count_pos_iff.mp (by omega)
        refine ⟨c :: before, after, ?_, ?_, ?_, ?_, single, behind⟩
        · rw [cut, List.cons_append, List.cons_append]
        · rw [place, byteSize]
          omega
        · rw [List.count_cons_of_ne newline, count]
        · rw [Text.afterLast_cons, if_pos passed, last]

section

variable {text : String} {line : Line} {number column : Nat}

theorem stop_le_of_getElem?_lines (listed : (ofText text).lines[number]? = some line) :
    line.stop ≤ byteSize text.toList := by
  obtain ⟨before, after, cut, place, -⟩ := getElem?_linesFrom listed
  have size := congrArg byteSize cut
  rw [byteSize_append, byteSize_append] at size
  rw [Line.stop, place]
  omega

theorem offset?_eq_none_iff : (ofText text).offset? ⟨number, column⟩ = none ↔ (ofText text).lineCount ≤ number := by
  rw [offset?, Option.map_eq_none_iff, List.getElem?_eq_none_iff]
  rfl

/-- A line and a column give a place on that line, at its end if the column is past it. -/
theorem offset?_of_getElem? (short : byteSize text.toList ≤ Line.maxOffset)
    (listed : (ofText text).lines[number]? = some line) :
    ∃ before after, text.toList = before ++ after ∧
      (ofText text).offset? ⟨number, column⟩ = some (byteSize before) ∧ before.count '\n' = number ∧
      afterLast '\n' before = line.text.take column ∧
      afterLast '\n' before ++ after.takeWhile (· != '\n') = line.text := by
  obtain ⟨before, after, cut, place, count, last, single, behind⟩ := getElem?_linesFrom listed
  have stop := stop_le_of_getElem?_lines listed
  let taken := line.text.take column
  let left := line.text.drop column
  have parts : taken ++ left = line.text := List.take_append_drop column line.text
  have noneTaken : '\n' ∉ taken := fun member => single (List.mem_of_mem_take member)
  have noneLeft : ∀ c ∈ left, (c != '\n') = true := by
    intro c member
    have other : c ≠ '\n' := fun same => single (same ▸ List.mem_of_mem_drop member)
    simpa using other
  have here : afterLast '\n' (before ++ taken) = taken := by
    rw [Text.afterLast_append before noneTaken, last, List.nil_append]
  refine ⟨before ++ taken, left ++ after, ?_, ?_, ?_, here, ?_⟩
  · rw [cut, ← parts]
    simp only [List.append_assoc]
  · have offset : line.offset column = line.start + byteSize taken := Line.offset_eq (stop.trans short)
    rw [offset?, listed, Option.map_some, offset, place, Nat.zero_add, byteSize_append]
  · rw [List.count_append, count, List.count_eq_zero.mpr noneTaken, Nat.add_zero]
  · rw [here, List.takeWhile_append_of_pos noneLeft, behind, List.append_nil, parts]

/-- A place is found again from its line and column. -/
theorem offset?_position_append (short : byteSize text.toList ≤ Line.maxOffset) {before after : List Char}
    (cut : text.toList = before ++ after) :
    (ofText text).offset? ((ofText text).position (byteSize before)) = some (byteSize before) := by
  obtain ⟨line, found, place, content⟩ := lineAt_linesFrom 0 0 before after
  simp only [Nat.zero_add] at found place
  have listed : (ofText text).lines[before.count '\n']? = some line := by
    rw [lines, ofText, ofChars, cut]
    exact getElem?_lineAt found
  have stop := stop_le_of_getElem?_lines listed
  have taken : line.text.take (afterLast '\n' before).length = afterLast '\n' before := by
    rw [content, List.take_left]
  rw [position_append cut, offset?, listed, Option.map_some, Line.offset_eq (stop.trans short), taken, place]

end

/-- In a text that ends within 32 bits, a place between two characters has the position told by the
newlines before it and the characters since the last of them, and is found again from it. Any other line
and column give a place on that line, before its newline, as many characters into the line as the column
says, or at its end; there is none just if there is no such line. -/
theorem position_offset? (text : String) (short : byteSize text.toList ≤ Line.maxOffset) :
    let index := ofText text
    (∀ before after, text.toList = before ++ after →
      index.position (byteSize before) = ⟨before.count '\n', (afterLast '\n' before).length⟩ ∧
        index.offset? (index.position (byteSize before)) = some (byteSize before)) ∧
    index.lineCount = (text.toList.splitOn '\n').length ∧
    ∀ number column,
      (index.offset? ⟨number, column⟩ = none ↔ index.lineCount ≤ number) ∧
      ∀ content, (text.toList.splitOn '\n')[number]? = some content →
        ∃ before after, text.toList = before ++ after ∧
          index.offset? ⟨number, column⟩ = some (byteSize before) ∧
          before.count '\n' = number ∧
          afterLast '\n' before ++ after.takeWhile (· != '\n') = content ∧
          index.position (byteSize before) = ⟨number, min column content.length⟩ := by
  intro index
  refine ⟨fun before after cut => ⟨position_append cut, offset?_position_append short cut⟩,
    lineCount_ofText text, fun number column => ⟨offset?_eq_none_iff, fun content listed => ?_⟩⟩
  obtain ⟨line, held, rfl⟩ : ∃ line, index.lines[number]? = some line ∧ line.text = content := by
    rw [← map_text_linesFrom 0, List.getElem?_map, Option.map_eq_some_iff] at listed
    exact listed
  obtain ⟨before, after, cut, offset, count, last, whole⟩ := offset?_of_getElem? short held
  have position := position_append cut
  rw [count, last, List.length_take] at position
  exact ⟨before, after, cut, offset, count, whole, position⟩

private def mixedText : String := "ab\nä b\n\ncd"

/-- A column past the end of a line that is not of ASCII counts as its end, and the place in front of its
last character is found again. -/
theorem position_offset?_mixed :
    byteSize mixedText.toList ≤ Line.maxOffset ∧
      (ofText mixedText).offset? ((ofText mixedText).position 6) = some 6 ∧
      ∃ before after, mixedText.toList = before ++ after ∧
        (ofText mixedText).offset? ⟨1, 5000000000⟩ = some (byteSize before) ∧
        afterLast '\n' before ++ after.takeWhile (· != '\n') = "ä b".toList ∧
        (ofText mixedText).position (byteSize before) = ⟨1, 3⟩ := by
  have short : byteSize mixedText.toList ≤ Line.maxOffset := by decide
  obtain ⟨places, -, lines⟩ := position_offset? mixedText short
  have cut : mixedText.toList = "ab\nä ".toList ++ "b\n\ncd".toList := by decide
  have second : (mixedText.toList.splitOn '\n')[1]? = some "ä b".toList := by decide
  obtain ⟨before, after, whole, offset, -, content, position⟩ := (lines 1 5000000000).2 _ second
  exact ⟨short, (places _ _ cut).2, before, after, whole, offset, content, position⟩

end LineIndex

end FusionAtlas
