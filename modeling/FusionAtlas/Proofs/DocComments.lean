import FusionAtlas.HostCode.Source
import FusionAtlas.Proofs.TextCut
import FusionAtlas.Proofs.Trimming
import Mathlib.Data.List.Basic
import Mathlib.Data.List.Infix

/-!
The comment in front of a signature. Blanks, modifiers and attribute lines may stand between the two, and
the text before them has to end a comment. What the comment says is read from behind the last `/**` there
is, which is the start of the comment unless that starts in another way. Main statements:
`DocBlock.before?_eq_some_iff` and `DocBlock.blockAt_eq_some_iff`.
-/

set_option autoImplicit false
set_option relaxedAutoImplicit false

namespace FusionAtlas

namespace Text

theorem beforeEnding?_eq_some_iff {ending text before : List Char} :
    beforeEnding? ending text = some before ↔ text = before ++ ending := by
  simp only [beforeEnding?, Option.map_eq_some_iff, afterOpening?_eq_some_iff]
  constructor
  · rintro ⟨reversed, whole, rfl⟩
    rw [← List.reverse_reverse text, whole]
    simp
  · rintro rfl
    exact ⟨before.reverse, by simp, List.reverse_reverse before⟩

theorem takeBytes_eq_some_iff {text front : List Char} {n : Nat} :
    takeBytes text n = some front ↔ ∃ behind, text = front ++ behind ∧ byteSize front = n := by
  constructor
  · intro cut
    induction text generalizing front n with
    | nil =>
      rw [takeBytes] at cut
      split at cut
      · rename_i zero
        obtain rfl := Option.some.inj cut
        exact ⟨[], rfl, zero.symm⟩
      · cases cut
    | cons c text ih =>
      rw [takeBytes] at cut
      split at cut
      · rename_i zero
        obtain rfl := Option.some.inj cut
        exact ⟨c :: text, rfl, zero.symm⟩
      · split at cut
        · obtain ⟨rest, inner, rfl⟩ := Option.map_eq_some_iff.mp cut
          obtain ⟨behind, rfl, size⟩ := ih inner
          exact ⟨behind, rfl, by rw [byteSize, size]; omega⟩
        · cases cut
  · rintro ⟨behind, rfl, rfl⟩
    exact takeBytes_append front behind

/-- A text is cut in front of its last line. -/
theorem exists_eq_append_afterLast (mark : Char) (text : List Char) :
    ∃ before, text = before ++ afterLast mark text ∧ mark ∉ afterLast mark text ∧
      (before = [] ∨ ∃ front, before = front ++ [mark]) := by
  induction text with
  | nil => exact ⟨[], by simp [afterLast]⟩
  | cons c text ih =>
    obtain ⟨before, whole, absent, start⟩ := ih
    rw [afterLast_cons]
    by_cases held : mark ∈ text
    · rw [if_pos held]
      refine ⟨c :: before, by rw [List.cons_append, ← whole], absent, Or.inr ?_⟩
      rcases start with rfl | ⟨front, rfl⟩
      · rw [List.nil_append] at whole
        exact absurd (whole ▸ held) absent
      · exact ⟨c :: front, rfl⟩
    · rw [if_neg held]
      by_cases same : c = mark
      · rw [if_pos same]
        exact ⟨[c], rfl, held, Or.inr ⟨[], by rw [same]; rfl⟩⟩
      · rw [if_neg same]
        exact ⟨[], rfl, by simpa [held] using Ne.symm same, Or.inl rfl⟩

end Text

namespace DocBlock

open FusionAtlas.Text (EndsSolid afterOpening? beforeEnding? isBlank trimEnd trimStart)

variable {text before rest lead : List Char}

/-- Modifiers with blanks before each. -/
inductive ModifierWords : List Char → Prop
  | nil : ModifierWords []
  | more {words blanks : List Char} {word : String} : ModifierWords words → blanks ≠ [] →
      (∀ c ∈ blanks, isBlank c = true) → word ∈ modifiers →
      ModifierWords (words ++ blanks ++ word.toList)

/-- Attributes, each on a line of its own. -/
inductive AttributeLines : List Char → Prop
  | nil : AttributeLines []
  | more {lines blanks indent inner : List Char} : AttributeLines lines →
      (∀ c ∈ blanks, isBlank c = true) → (∀ c ∈ indent, isBlank c = true) →
      '\n' ∉ indent → '\n' ∉ inner →
      AttributeLines (lines ++ blanks ++ '\n' :: (indent ++ "#[".toList ++ inner ++ [']']))

/-- What may stand between a comment and the signature it describes. -/
def IsLead (lead : List Char) : Prop :=
  ∃ lines words blanks, lead = lines ++ words ++ blanks ∧ AttributeLines lines ∧
    ModifierWords words ∧ ∀ c ∈ blanks, isBlank c = true

/-- The last letter of a modifier tells it from the others. -/
private theorem modifier_end {word : String} (listed : word ∈ modifiers) :
    ∃ front last, word.toList = front ++ [last] ∧ isBlank last = false ∧ last ∈ ['l', 't', 'c'] ∧
      ∀ other ∈ modifiers, other.toList.getLast? = some last → other = word := by
  simp only [modifiers, List.mem_cons, List.not_mem_nil, or_false] at listed
  rcases listed with rfl | rfl | rfl
  · exact ⟨"fina".toList, 'l', by decide⟩
  · exact ⟨"abstrac".toList, 't', by decide⟩
  · exact ⟨"stati".toList, 'c', by decide⟩

theorem ModifierWords.endsSolid {words : List Char} (shape : ModifierWords words) :
    words = [] ∨ EndsSolid words := by
  cases shape with
  | nil => exact Or.inl rfl
  | more _ _ _ listed =>
    obtain ⟨front, last, spelled, other, -⟩ := modifier_end listed
    exact Or.inr (EndsSolid.append _ ⟨front, last, spelled, other⟩)

theorem beforeModifier?_eq_some_iff :
    beforeModifier? text = some before ↔
      (∃ word ∈ modifiers, text = before ++ word.toList) ∧
        before.getLast?.all isBlank = true := by
  rw [beforeModifier?, Option.filter_eq_some_iff]
  refine and_congr_left fun _ => ⟨fun found => ?_, ?_⟩
  · obtain ⟨word, listed, ends⟩ := List.exists_of_findSome?_eq_some found
    exact ⟨word, listed, Text.beforeEnding?_eq_some_iff.mp ends⟩
  · rintro ⟨word, listed, rfl⟩
    have hit : (modifiers.findSome? fun modifier =>
        beforeEnding? modifier.toList (before ++ word.toList)).isSome = true := by
      rw [List.findSome?_isSome_iff]
      exact ⟨word, listed, by rw [Text.beforeEnding?_eq_some_iff.mpr rfl]; rfl⟩
    obtain ⟨found, result⟩ := Option.isSome_iff_exists.mp hit
    rw [result]
    -- No text ends in two modifiers, so the one that is found first is the only one.
    obtain ⟨other, also, ends⟩ := List.exists_of_findSome?_eq_some result
    have whole := Text.beforeEnding?_eq_some_iff.mp ends
    obtain ⟨front, last, spelled, -, -, only⟩ := modifier_end listed
    obtain ⟨front', last', spelled', -⟩ := modifier_end also
    have lasts : other.toList.getLast? = some last := by
      have ending := congrArg List.getLast? whole
      simpa [spelled, spelled'] using ending.symm
    rw [only other also lasts] at whole
    rw [List.append_cancel_right whole]

/-- A text that a modifier is dropped from ends in the last letter of one. -/
theorem beforeModifier?_eq_none {front : List Char} {c : Char} (mark : c ∉ ['l', 't', 'c']) :
    beforeModifier? (front ++ [c]) = none := by
  rw [Option.eq_none_iff_forall_ne_some]
  intro before found
  obtain ⟨⟨word, listed, whole⟩, -⟩ := beforeModifier?_eq_some_iff.mp found
  obtain ⟨start, last, spelled, -, letter, -⟩ := modifier_end listed
  rw [spelled, ← List.append_assoc] at whole
  obtain rfl := List.singleton_inj.mp (List.append_inj_right' whole rfl)
  exact mark letter

/-- Whatever is dropped as modifiers has their shape, unless nothing is left. -/
theorem exists_of_dropModifiers (fuel : Nat) (text : List Char)
    (left : dropModifiers fuel text ≠ []) :
    ∃ words, text = dropModifiers fuel text ++ words ∧ ModifierWords words := by
  induction fuel generalizing text with
  | zero => exact ⟨[], by simp [dropModifiers], .nil⟩
  | succ fuel ih =>
    cases found : beforeModifier? text with
    | none => exact ⟨[], by simp [dropModifiers, found], .nil⟩
    | some before =>
      have dropped : dropModifiers (fuel + 1) text = dropModifiers fuel (trimEnd before) := by
        rw [dropModifiers, found]
      rw [dropped] at left ⊢
      obtain ⟨words, inner, shape⟩ := ih _ left
      obtain ⟨⟨word, listed, whole⟩, ends⟩ := beforeModifier?_eq_some_iff.mp found
      obtain ⟨blanks, cut, blank⟩ := Text.exists_eq_trimEnd_append before
      have parted : blanks ≠ [] := by
        rintro rfl
        rw [List.append_nil] at cut
        rcases List.eq_nil_or_concat' before with rfl | ⟨front, last, rfl⟩
        · rw [← cut] at left
          cases fuel <;> exact left rfl
        · have lastBlank : isBlank last = true := by simpa using ends
          rw [Text.trimEnd_append_blanks front (by simpa using lastBlank)] at cut
          obtain ⟨more, whole, -⟩ := Text.exists_eq_trimEnd_append front
          have sizes := congrArg List.length cut
          have also := congrArg List.length whole
          simp only [List.length_append, List.length_singleton] at sizes also
          omega
      refine ⟨words ++ blanks ++ word.toList, ?_, .more shape parted blank listed⟩
      calc text = trimEnd before ++ blanks ++ word.toList := by rw [← cut, whole]
        _ = dropModifiers fuel (trimEnd before) ++ (words ++ blanks ++ word.toList) := by
          rw [congrArg (· ++ blanks) inner]
          simp only [List.append_assoc]

/-- Modifiers are dropped back to a text that ends in none. -/
theorem ModifierWords.drop {words : List Char} (shape : ModifierWords words)
    (solid : EndsSolid rest) (last : beforeModifier? rest = none) {fuel : Nat}
    (enough : words.length ≤ fuel) : dropModifiers fuel (rest ++ words) = rest := by
  induction shape generalizing fuel with
  | nil =>
    rw [List.append_nil]
    cases fuel with
    | zero => rfl
    | succ fuel => rw [dropModifiers, last]
  | @more words blanks word shape parted blank listed ih =>
    have size : 0 < blanks.length := List.length_pos_iff.mpr parted
    simp only [List.length_append] at enough
    obtain ⟨fuel, rfl⟩ : ∃ n, fuel = n + 1 := ⟨fuel - 1, by omega⟩
    have found : beforeModifier? (rest ++ (words ++ blanks ++ word.toList)) =
        some (rest ++ words ++ blanks) := by
      refine beforeModifier?_eq_some_iff.mpr ⟨⟨word, listed, by simp⟩, ?_⟩
      obtain ⟨front, last, rfl⟩ := (List.eq_nil_or_concat' blanks).resolve_left parted
      simpa using blank last (by simp)
    have solid : EndsSolid (rest ++ words) := by
      rcases shape.endsSolid with rfl | ends
      · rwa [List.append_nil]
      · exact ends.append rest
    rw [dropModifiers, found]
    simp only
    rw [Text.trimEnd_append_blanks _ blank, solid.trimEnd]
    exact ih (by omega)

theorem AttributeLines.endsSolid {lines : List Char} (shape : AttributeLines lines) :
    lines = [] ∨ ∃ front, lines = front ++ [']'] := by
  cases shape with
  | nil => exact Or.inl rfl
  | @more lines blanks indent inner _ _ _ _ _ =>
    exact Or.inr ⟨lines ++ blanks ++ '\n' :: (indent ++ "#[".toList ++ inner), by simp⟩

theorem beforeAttribute?_eq_some_iff :
    beforeAttribute? text = some before ↔
      ∃ indent inner, text = before ++ (indent ++ "#[".toList ++ inner ++ [']']) ∧
        (∀ c ∈ indent, isBlank c = true) ∧ '\n' ∉ indent ∧ '\n' ∉ inner ∧
        (before = [] ∨ ∃ front, before = front ++ ['\n']) := by
  constructor
  · intro found
    simp only [beforeAttribute?] at found
    split at found
    · rename_i shape
      obtain ⟨ends, opens⟩ := shape
      obtain ⟨cut, whole, absent, start⟩ := Text.exists_eq_append_afterLast '\n' text
      have kept : text.take (text.length - (Text.afterLast '\n' text).length) = cut := by
        rw [congrArg List.length whole, List.length_append, Nat.add_sub_cancel]
        exact (congrArg (List.take cut.length) whole).trans List.take_left
      rw [kept] at found
      obtain rfl := Option.some.inj found
      generalize Text.afterLast '\n' text = line at whole absent opens
      obtain ⟨behind, opening⟩ := Option.isSome_iff_exists.mp opens
      have marked : line.dropWhile isBlank = "#[".toList ++ behind := Text.afterOpening?_eq_some opening
      have cutLine : line = line.takeWhile isBlank ++ ("#[".toList ++ behind) := by
        rw [← marked, List.takeWhile_append_dropWhile]
      obtain ⟨inner, rfl⟩ : ∃ inner, behind = inner ++ [']'] := by
        rw [whole, cutLine] at ends
        rcases List.eq_nil_or_concat' behind with rfl | ⟨front, last, rfl⟩
        · simp at ends
        · simp only [← List.append_assoc, List.getLast?_concat, Option.some.injEq] at ends
          exact ⟨front, by rw [ends]⟩
      generalize indented : line.takeWhile isBlank = indent at cutLine
      subst cutLine
      simp only [List.mem_append, not_or] at absent
      refine ⟨indent, inner, by simp only [whole, List.append_assoc], fun c member => ?_, absent.1,
        absent.2.2.1, start⟩
      exact List.mem_takeWhile_imp (indented ▸ member)
    · cases found
  · rintro ⟨indent, inner, rfl, blank, noBreak, inside, start⟩
    have absent : '\n' ∉ indent ++ "#[".toList ++ inner ++ [']'] := by simp [noBreak, inside]
    have line : Text.afterLast '\n' (before ++ (indent ++ "#[".toList ++ inner ++ [']'])) =
        indent ++ "#[".toList ++ inner ++ [']'] := by
      rcases start with rfl | ⟨front, rfl⟩
      · exact Text.afterLast_of_not_mem absent
      · rw [List.append_assoc, List.singleton_append]
        exact Text.afterLast_append_cons front absent
    have opens : trimStart (indent ++ "#[".toList ++ inner ++ [']']) =
        ['#', '['] ++ (inner ++ [']']) := by
      rw [trimStart, List.append_assoc, List.append_assoc, List.dropWhile_append_of_pos blank]
      rfl
    have ends : (before ++ (indent ++ "#[".toList ++ inner ++ [']'])).getLast? = some ']' := by
      rw [← List.append_assoc, List.getLast?_concat]
    simp only [beforeAttribute?]
    rw [line, opens, Text.afterOpening?_append, if_pos ⟨ends, rfl⟩, List.length_append,
      Nat.add_sub_cancel, List.take_left]

/-- Whatever is dropped as attributes has their shape, unless nothing is left. -/
theorem exists_of_dropAttributes (fuel : Nat) (text : List Char)
    (left : dropAttributes fuel text ≠ []) :
    ∃ lines, text = dropAttributes fuel text ++ lines ∧ AttributeLines lines := by
  induction fuel generalizing text with
  | zero => exact ⟨[], by simp [dropAttributes], .nil⟩
  | succ fuel ih =>
    cases found : beforeAttribute? text with
    | none => exact ⟨[], by simp [dropAttributes, found], .nil⟩
    | some before =>
      have dropped : dropAttributes (fuel + 1) text = dropAttributes fuel (trimEnd before) := by
        rw [dropAttributes, found]
      rw [dropped] at left ⊢
      obtain ⟨lines, inner, shape⟩ := ih _ left
      obtain ⟨indent, inside, whole, blank, noBreak, also, start⟩ :=
        beforeAttribute?_eq_some_iff.mp found
      rcases start with rfl | ⟨front, rfl⟩
      · cases fuel <;> exact absurd rfl left
      · have lineEnd : trimEnd (front ++ ['\n']) = trimEnd front :=
          Text.trimEnd_append_blanks front (by decide)
        rw [lineEnd] at inner ⊢
        obtain ⟨blanks, cut, allBlank⟩ := Text.exists_eq_trimEnd_append front
        refine ⟨_, ?_, .more shape allBlank blank noBreak also⟩
        calc text = trimEnd front ++ blanks ++ ['\n'] ++ (indent ++ "#[".toList ++ inside ++ [']']) := by
              rw [← cut, whole]
          _ = _ := by
            rw [congrArg (· ++ blanks) inner]
            simp only [List.append_assoc, List.singleton_append]

/-- Attributes are dropped back to a text that ends in none. -/
theorem AttributeLines.drop {lines : List Char} (shape : AttributeLines lines)
    (solid : EndsSolid rest) (last : rest.getLast? ≠ some ']') {fuel : Nat}
    (enough : lines.length ≤ fuel) : dropAttributes fuel (rest ++ lines) = rest := by
  induction shape generalizing fuel with
  | nil =>
    rw [List.append_nil]
    cases fuel with
    | zero => rfl
    | succ fuel => simp [dropAttributes, beforeAttribute?, last]
  | @more lines blanks indent inner shape blank indented noBreak inside ih =>
    simp only [List.length_append, List.length_cons] at enough
    obtain ⟨fuel, rfl⟩ : ∃ n, fuel = n + 1 := ⟨fuel - 1, by omega⟩
    have found : beforeAttribute? (rest ++ (lines ++ blanks ++
        '\n' :: (indent ++ "#[".toList ++ inner ++ [']']))) =
        some (rest ++ lines ++ (blanks ++ ['\n'])) :=
      beforeAttribute?_eq_some_iff.mpr
        ⟨indent, inner, by simp, indented, noBreak, inside, Or.inr ⟨rest ++ lines ++ blanks, by simp⟩⟩
    have solid : EndsSolid (rest ++ lines) := by
      rcases shape.endsSolid with rfl | ⟨front, rfl⟩
      · rwa [List.append_nil]
      · exact ⟨rest ++ front, ']', (List.append_assoc ..).symm, by decide⟩
    have allBlank : ∀ c ∈ blanks ++ ['\n'], isBlank c = true := by
      intro c member
      rcases List.mem_append.mp member with inside | rest
      · exact blank c inside
      · rw [List.mem_singleton.mp rest]
        decide
    rw [dropAttributes, found]
    simp only
    rw [Text.trimEnd_append_blanks _ allBlank, solid.trimEnd]
    exact ih (by omega)

theorem afterLastMark?_eq_none_iff {mark : List Char} (written : mark ≠ []) :
    afterLastMark? mark text = none ↔ ¬ mark <:+: text := by
  induction text with
  | nil => simpa [afterLastMark?] using written
  | cons c text ih =>
    rw [afterLastMark?, Option.or_eq_none_iff, ih, List.infix_cons_iff, not_or, and_comm]
    refine and_congr_left fun _ => ?_
    rw [Option.eq_none_iff_forall_ne_some]
    simp only [ne_eq, Text.afterOpening?_eq_some_iff]
    exact ⟨fun none ⟨rest, whole⟩ => none rest whole.symm,
      fun none rest whole => none ⟨rest, whole.symm⟩⟩

/-- The last opening of a comment is the one that no other follows. -/
theorem afterLastMark?_eq_some_iff :
    afterLastMark? "/**".toList text = some rest ↔
      (∃ front, text = front ++ "/**".toList ++ rest) ∧ ¬ "/**".toList <:+: rest := by
  constructor
  · intro found
    induction text with
    | nil => cases found
    | cons c text ih =>
      rw [afterLastMark?] at found
      cases later : afterLastMark? "/**".toList text with
      | some behind =>
        rw [later, Option.some_or] at found
        obtain ⟨⟨front, whole⟩, last⟩ := ih (later.trans found)
        exact ⟨⟨c :: front, by rw [whole]; rfl⟩, last⟩
      | none =>
        rw [later, Option.none_or] at found
        have whole := Text.afterOpening?_eq_some found
        refine ⟨⟨[], whole⟩, fun inside => ?_⟩
        have behind : rest <:+: text := by
          rw [(List.cons.inj whole).2]
          exact (List.suffix_append _ rest).isInfix
        exact (afterLastMark?_eq_none_iff (by decide)).mp later (inside.trans behind)
  · rintro ⟨⟨front, rfl⟩, last⟩
    -- Another opening cannot start inside this one.
    have only : ¬ "/**".toList <:+: '*' :: '*' :: rest := by
      simpa [List.infix_cons_iff] using last
    induction front with
    | nil =>
      have none := (afterLastMark?_eq_none_iff (by decide)).mpr only
      change (afterLastMark? "/**".toList ('*' :: '*' :: rest)).or
        (afterOpening? "/**".toList ("/**".toList ++ rest)) = some rest
      rw [none, Option.none_or, Text.afterOpening?_append]
    | cons c front ih =>
      rw [List.cons_append, List.cons_append, afterLastMark?, ih, Option.some_or]

/-- What may stand before a signature is dropped, and nothing else. -/
theorem dropAttributes_dropModifiers_eq_iff {comment : List Char} (closed : "*/".toList <:+ comment) :
    dropAttributes (dropModifiers text.length (trimEnd text)).length
        (dropModifiers text.length (trimEnd text)) = comment ↔
      ∃ lead, text = comment ++ lead ∧ IsLead lead := by
  obtain ⟨front, rfl⟩ := closed
  constructor
  · intro left
    have written : front ++ "*/".toList ≠ [] := by simp
    obtain ⟨lines, between, linesShape⟩ := exists_of_dropAttributes
      (dropModifiers text.length (trimEnd text)).length _ (left ▸ written)
    rw [left] at between
    obtain ⟨words, behind, wordsShape⟩ := exists_of_dropModifiers text.length (trimEnd text)
      (by rw [between]; simp)
    obtain ⟨blanks, whole, blank⟩ := Text.exists_eq_trimEnd_append text
    refine ⟨lines ++ words ++ blanks, ?_, lines, words, blanks, rfl, linesShape, wordsShape, blank⟩
    calc text = trimEnd text ++ blanks := whole
      _ = dropModifiers text.length (trimEnd text) ++ words ++ blanks :=
        congrArg (· ++ blanks) behind
      _ = front ++ "*/".toList ++ (lines ++ words ++ blanks) := by
        rw [between]
        simp only [List.append_assoc]
  · rintro ⟨lead, rfl, lines, words, blanks, rfl, linesShape, wordsShape, blank⟩
    have comment : EndsSolid (front ++ "*/".toList) := ⟨front ++ ['*'], '/', by simp, by decide⟩
    have attributes : EndsSolid (front ++ "*/".toList ++ lines) := by
      rcases linesShape.endsSolid with rfl | ⟨start, rfl⟩
      · rwa [List.append_nil]
      · exact ⟨front ++ "*/".toList ++ start, ']', by simp, by decide⟩
    have noModifier : beforeModifier? (front ++ "*/".toList ++ lines) = none := by
      rcases linesShape.endsSolid with rfl | ⟨start, rfl⟩
      · rw [List.append_nil, show front ++ "*/".toList = front ++ ['*'] ++ ['/'] by simp]
        exact beforeModifier?_eq_none (by decide)
      · rw [← List.append_assoc]
        exact beforeModifier?_eq_none (by decide)
    have solid : EndsSolid (front ++ "*/".toList ++ lines ++ words) := by
      rcases wordsShape.endsSolid with rfl | ends
      · rwa [List.append_nil]
      · exact ends.append _
    have trimmed : trimEnd (front ++ "*/".toList ++ (lines ++ words ++ blanks)) =
        front ++ "*/".toList ++ lines ++ words := by
      rw [← List.append_assoc, Text.trimEnd_append_blanks _ blank, ← List.append_assoc, solid.trimEnd]
    have dropped : dropModifiers (front ++ "*/".toList ++ (lines ++ words ++ blanks)).length
        (front ++ "*/".toList ++ lines ++ words) = front ++ "*/".toList ++ lines :=
      wordsShape.drop attributes noModifier (by simp only [List.length_append]; omega)
    rw [trimmed, dropped]
    exact linesShape.drop comment (by simp) (by simp only [List.length_append]; omega)

/-- A comment is found in front of a signature if nothing but blanks, modifiers and attribute lines
stands between its end and the signature. It says what stands behind the last `/**`. -/
theorem before?_eq_some_iff {block : DocBlock} :
    before? text = some block ↔
      ∃ front body lead, text = front ++ "/**".toList ++ body ++ "*/".toList ++ lead ∧
        IsLead lead ∧ ¬ "/**".toList <:+: body ∧ block = parse body := by
  simp only [before?, Option.bind_eq_bind, Option.bind_eq_some_iff, Text.beforeEnding?_eq_some_iff]
  constructor
  · rintro ⟨inside, left, body, last, parsed⟩
    obtain ⟨⟨front, rfl⟩, only⟩ := afterLastMark?_eq_some_iff.mp last
    obtain ⟨lead, whole, shape⟩ :=
      (dropAttributes_dropModifiers_eq_iff (List.suffix_append _ ['*', '/'])).mp left
    exact ⟨front, body, lead, whole, shape, only, (Option.some.inj parsed).symm⟩
  · rintro ⟨front, body, lead, whole, shape, only, rfl⟩
    exact ⟨front ++ "/**".toList ++ body,
      (dropAttributes_dropModifiers_eq_iff (List.suffix_append _ ['*', '/'])).mpr ⟨lead, whole, shape⟩,
      body, afterLastMark?_eq_some_iff.mpr ⟨⟨front, rfl⟩, only⟩, rfl⟩

/-- The opening of a comment reaches into none that starts behind it. -/
theorem infix_append_comment_iff {front plain : List Char} :
    "/**".toList <:+: front ++ "/*".toList ++ plain ↔
      "/**".toList <:+: front ∨ "/**".toList <:+: "/*".toList ++ plain := by
  rw [List.append_assoc]
  constructor
  · intro inside
    induction front with
    | nil => exact Or.inr inside
    | cons c front ih =>
      rcases List.infix_cons_iff.mp inside with opens | later
      · rcases front with _ | ⟨d, _ | ⟨e, front⟩⟩
        · simp at opens
        · simp at opens
        · refine Or.inl (List.IsPrefix.isInfix ?_)
          simpa using opens
      · exact (ih later).imp_left fun held => held.trans (List.suffix_cons c front).isInfix
  · rintro (held | held)
    · exact held.trans (List.prefix_append _ _).isInfix
    · exact held.trans (List.suffix_append _ _).isInfix

/-- No comment is found behind code. -/
theorem before?_of_brace (front : List Char) {c : Char} {blanks : List Char} (brace : c ∈ ['\x7b', '\x7d'])
    (blank : ∀ d ∈ blanks, isBlank d = true) : before? (front ++ [c] ++ blanks) = none := by
  have solid : EndsSolid (front ++ [c]) := by
    refine ⟨front, c, rfl, ?_⟩
    rcases List.mem_pair.mp brace with rfl | rfl <;> decide
  have noModifier : beforeModifier? (front ++ [c]) = none := by
    refine beforeModifier?_eq_none ?_
    rcases List.mem_pair.mp brace with rfl | rfl <;> decide
  have noAttribute : (front ++ [c]).getLast? ≠ some ']' := by
    rcases List.mem_pair.mp brace with rfl | rfl <;> simp
  have noComment : beforeEnding? ['*', '/'] (front ++ [c]) = none := by
    rcases List.mem_pair.mp brace with rfl | rfl <;> simp [beforeEnding?, afterOpening?]
  have words (fuel : Nat) : dropModifiers fuel (front ++ [c]) = front ++ [c] := by
    simpa using ModifierWords.nil.drop solid noModifier (Nat.zero_le fuel)
  have lines (fuel : Nat) : dropAttributes fuel (front ++ [c]) = front ++ [c] := by
    simpa using AttributeLines.nil.drop solid noAttribute (Nat.zero_le fuel)
  simp only [before?, Text.trimEnd_append_blanks _ blank, solid.trimEnd, words, lines, noComment]
  rfl

/-- In front of a plain comment the search goes on, over whatever stands there. -/
theorem before?_of_plain (front : List Char) {plain : List Char} (shape : IsLead lead)
    (noDoc : ¬ "/**".toList <:+: "/*".toList ++ plain) :
    before? (front ++ "/*".toList ++ plain ++ "*/".toList ++ lead) =
      (afterLastMark? "/**".toList front).map fun earlier => parse (earlier ++ "/*".toList ++ plain) := by
  have left := (dropAttributes_dropModifiers_eq_iff
    (List.suffix_append (front ++ "/*".toList ++ plain) "*/".toList)).mpr ⟨lead, rfl, shape⟩
  have ends : beforeEnding? ['*', '/'] (front ++ "/*".toList ++ plain ++ "*/".toList) =
      some (front ++ "/*".toList ++ plain) := Text.beforeEnding?_eq_some_iff.mpr rfl
  simp only [before?, left, ends, Option.bind_eq_bind, Option.bind_some]
  cases found : afterLastMark? "/**".toList front with
  | some earlier =>
    obtain ⟨⟨start, rfl⟩, only⟩ := afterLastMark?_eq_some_iff.mp found
    have last : afterLastMark? "/**".toList (start ++ "/**".toList ++ earlier ++ "/*".toList ++ plain) =
        some (earlier ++ "/*".toList ++ plain) :=
      afterLastMark?_eq_some_iff.mpr ⟨⟨start, by simp only [List.append_assoc]⟩, fun inside =>
        (infix_append_comment_iff.mp inside).elim only noDoc⟩
    rw [last]
    rfl
  | none =>
    have absent := (afterLastMark?_eq_none_iff (by decide)).mp found
    rw [(afterLastMark?_eq_none_iff (by decide)).mpr fun inside =>
      (infix_append_comment_iff.mp inside).elim absent noDoc]
    rfl

/-- What the text in front of an offset is taken to say of the signature there: the text from behind the
last `/**`, if what follows ends in a comment and a lead. In front of a plain comment this is no comment
of the signature: nothing is found there only if no other comment for documentation stands before it. -/
theorem blockAt_eq_some_iff (source : List Char) (offset : Nat) :
    (∀ block, (Text.takeBytes source offset).bind before? = some block ↔
      ∃ front body lead behind,
        source = front ++ "/**".toList ++ body ++ "*/".toList ++ lead ++ behind ∧
        Text.byteSize (front ++ "/**".toList ++ body ++ "*/".toList ++ lead) = offset ∧
        IsLead lead ∧ ¬ "/**".toList <:+: body ∧ block = parse body) ∧
    ∀ front plain lead,
      Text.takeBytes source offset = some (front ++ "/*".toList ++ plain ++ "*/".toList ++ lead) →
      IsLead lead → ¬ "/**".toList <:+: "/*".toList ++ plain →
      (Text.takeBytes source offset).bind before? =
        (afterLastMark? "/**".toList front).map fun earlier =>
          parse (earlier ++ "/*".toList ++ plain) := by
  refine ⟨fun block => ?_, fun front plain lead cut shape noDoc => ?_⟩
  · simp only [Option.bind_eq_some_iff, Text.takeBytes_eq_some_iff, before?_eq_some_iff]
    constructor
    · rintro ⟨_, ⟨behind, rfl, size⟩, front, body, lead, rfl, found⟩
      exact ⟨front, body, lead, behind, rfl, size, found⟩
    · rintro ⟨front, body, lead, behind, rfl, size, found⟩
      exact ⟨_, ⟨behind, rfl, size⟩, front, body, lead, rfl, found⟩
  · rw [cut]
    exact before?_of_plain front shape noDoc

/-- A method behind a plain comment, in a text without any other. -/
theorem blockAt_plain_only :
    Text.takeBytes "/* plain */\npublic function label()".toList 12 =
        some ("/*".toList ++ " plain ".toList ++ "*/".toList ++ ['\n']) ∧
      IsLead ['\n'] ∧ ¬ "/**".toList <:+: "/*".toList ++ " plain ".toList ∧
      (Text.takeBytes "/* plain */\npublic function label()".toList 12).bind before? = none := by
  have lead : IsLead ['\n'] := ⟨[], [], ['\n'], rfl, .nil, .nil, by decide⟩
  have cut : Text.takeBytes "/* plain */\npublic function label()".toList 12 =
      some ("/*".toList ++ " plain ".toList ++ "*/".toList ++ ['\n']) := by decide
  have noDoc : ¬ "/**".toList <:+: "/*".toList ++ " plain ".toList := by decide
  have nothing := (blockAt_eq_some_iff "/* plain */\npublic function label()".toList 12).2
    [] " plain ".toList ['\n'] cut lead noDoc
  exact ⟨cut, lead, noDoc, nothing⟩

/-- The comment in front of the second method is plain. -/
private def commentedSource : ClassSource :=
  ⟨"<?php\nnamespace Acme;\nclass Pump\n\x7b\n".toList ++
    "    /**\n     * @return int\n     */\n    public function level() \x7b\x7d\n\n".toList ++
    "    /* plain */\n    public function label(): string \x7b\x7d\n\x7d\n".toList⟩

/-- A method behind a plain comment is told to return what an earlier method returns, and is described by
the code between the two comments. -/
theorem blockAt_behind_plain :
    (∃ front lead, Text.takeBytes commentedSource.text 122 =
        some (front ++ "/*".toList ++ " plain ".toList ++ "*/".toList ++ lead) ∧ IsLead lead) ∧
      ¬ "/**".toList <:+: "/*".toList ++ " plain ".toList ∧
      (Text.takeBytes commentedSource.text 122).bind before? =
        some ⟨"/\npublic function level() \x7b\x7d\n/* plain".toList, some ⟨"int".toList, none⟩⟩ ∧
      (commentedSource.methods (LineIndex.ofChars commentedSource.text) "Acme" []).map
          (fun method => (method.name, method.range.start, method.returnType)) =
        [("level", 74, .primitive "int"), ("label", 122, .primitive "int")] := by
  have blanks : ∀ c ∈ "\n    ".toList, isBlank c = true := by decide
  exact ⟨⟨commentedSource.text.take 106, "\n    ".toList, by decide +kernel,
    [], [], "\n    ".toList, rfl, .nil, .nil, blanks⟩, by decide, by decide +kernel, by decide +kernel⟩

end DocBlock

end FusionAtlas
