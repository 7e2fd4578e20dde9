import FusionAtlas.Proofs.WrittenParameters

/-!
Attributes in front of parameters. Where a list is divided depends on all brackets and quotes of an attribute,
but what is dropped in front of a parameter ends at the first closing bracket. Main statements:
`ParameterList.dropAttributes_attributesText` and `AttributedPiece.parse_attributed`.
-/

set_option autoImplicit false
set_option relaxedAutoImplicit false

namespace FusionAtlas

/-- If nothing is found where nothing was found before, the lists are the same only if each item finds the
same. -/
theorem filterMap_eq_filterMap_iff {α β : Type} {f g : α → Option β} {items : List α}
    (missing : ∀ item ∈ items, f item = none → g item = none) :
    items.filterMap g = items.filterMap f ↔ ∀ item ∈ items, g item = f item := by
  refine ⟨fun same => ?_, List.filterMap_congr⟩
  induction items with
  | nil => simp
  | cons item items ih =>
    obtain ⟨first, others⟩ := List.forall_mem_cons.mp missing
    rw [List.forall_mem_cons]
    cases before : f item with
    | none =>
      rw [List.filterMap_cons_none before, List.filterMap_cons_none (first before)] at same
      exact ⟨first before, ih others same⟩
    | some value =>
      rw [List.filterMap_cons_some before] at same
      cases now : g item with
      | none =>
        have fewer : (items.filterMap g).length ≤ (items.filterMap f).length := by
          rw [List.length_filterMap_eq_countP, List.length_filterMap_eq_countP]
          refine List.countP_mono_left fun other listed found => ?_
          rw [Option.isSome_iff_ne_none] at found ⊢
          exact mt (others other listed) found
        rw [List.filterMap_cons_none now] at same
        rw [same, List.length_cons] at fewer
        omega
      | some other =>
        rw [List.filterMap_cons_some now, List.cons.injEq] at same
        exact ⟨congrArg some same.1, ih others same.2⟩

namespace ParameterList

open FusionAtlas.Text (trim trimStart)

variable {text content piece : List Char}

/-- Behind each closing bracket of the content of an attribute, blanks aside, another attribute opens. -/
def Reopens (content : List Char) : Prop :=
  ∀ front behind, content = front ++ ']' :: behind → ['#', '['] <+: trimStart behind

theorem reopens_of_not_mem (free : ']' ∉ content) : Reopens content := by
  rintro front behind rfl
  simp at free

/-- It depends on the first closing bracket and on what the attribute behind it holds. -/
theorem reopens_append_iff {front behind : List Char} (free : ']' ∉ front) :
    Reopens (front ++ ']' :: behind) ↔
      ∃ rest, trimStart behind = '#' :: '[' :: rest ∧ Reopens rest := by
  constructor
  · intro reopens
    obtain ⟨rest, opened⟩ := reopens front behind rfl
    refine ⟨rest, opened.symm, ?_⟩
    rintro more others rfl
    obtain ⟨blanks, whole, -⟩ := Text.exists_eq_append_trimStart behind
    refine reopens (front ++ ']' :: (blanks ++ ['#', '['] ++ more)) others ?_
    rw [whole, ← opened]
    simp
  · rintro ⟨rest, opened, reopens⟩ other others whole
    have first : Skips (front ++ ']' :: behind) (']' :: behind) := ⟨front, rfl, free⟩
    rw [whole] at first
    obtain ⟨more, same⟩ := first.keeps
    cases more with
    | nil =>
      obtain rfl := (List.cons.inj same).2
      exact ⟨rest, opened.symm⟩
    | cons c more =>
      obtain rfl := (List.cons.inj same).2
      have inner : Skips (more ++ ']' :: others) rest :=
        (Skips.blanks _).trans ⟨['#', '['], opened, by decide⟩
      obtain ⟨more, rfl⟩ := inner.keeps
      exact reopens more others rfl

/-- An attribute is dropped up to the first closing bracket. -/
theorem dropAttributes_append {front : List Char} (free : ']' ∉ front) (behind : List Char) :
    dropAttributes ('#' :: '[' :: (front ++ ']' :: behind)) = dropAttributes (trimStart behind) := by
  have inside : ∀ c ∈ front, (c != ']') = true := by
    intro c member
    rw [bne_iff_ne]
    rintro rfl
    exact free member
  have stop : (front ++ ']' :: behind).dropWhile (· != ']') = ']' :: behind :=
    Text.dropWhile_append_of_head inside (by simp)
  rw [dropAttributes]
  split
  · next found =>
    rw [stop] at found
    obtain ⟨-, rfl⟩ := List.cons.inj found
    rfl
  · next found =>
    rw [stop] at found
    cases found

theorem length_dropAttributes_le (text : List Char) : (dropAttributes text).length ≤ text.length := by
  fun_induction dropAttributes text with
  | case1 rest closing behind found ih =>
    have trimmed := Text.length_trimStart_le behind
    have dropped : (rest.dropWhile (· != ']')).length ≤ rest.length := (List.dropWhile_sublist _).length_le
    rw [found, List.length_cons] at dropped
    simp only [List.length_cons]
    omega
  | case2 => rfl
  | case3 => rfl

/-- An attribute as it is written in front of a parameter. -/
def attributeText (content : List Char) : List Char := '#' :: '[' :: (content ++ [']', ' '])

/-- No attribute opens only because a closing bracket stands behind the text. -/
theorem opening_prefix_append_iff (text rest : List Char) :
    ['#', '['] <+: text ++ ']' :: rest ↔ ['#', '['] <+: text := by
  match text with
  | [] => simp
  | [c] => simp
  | c :: d :: text => simp

/-- An attribute is dropped as a whole, or what is left begins inside of it. -/
theorem dropAttributes_attributeText (content behind : List Char) :
    (Reopens content → dropAttributes (attributeText content ++ behind) =
      dropAttributes (trimStart behind)) ∧
    (¬Reopens content → ∃ front,
      dropAttributes (attributeText content ++ behind) = front ++ ']' :: ' ' :: behind) := by
  by_cases member : ']' ∈ content
  · obtain ⟨front, inner, whole, free⟩ := List.eq_append_cons_of_mem member
    have dropped : dropAttributes (attributeText content ++ behind) =
        dropAttributes (trimStart inner ++ ']' :: ' ' :: behind) := by
      rw [← Text.trimStart_append_cons inner (by decide), ← dropAttributes_append free, whole]
      simp [attributeText]
    rw [dropped, whole, reopens_append_iff free]
    by_cases opened : ['#', '['] <+: trimStart inner
    · -- The text goes on as one with a shorter attribute in front.
      obtain ⟨rest, opened⟩ := opened
      have shorter : rest.length < content.length := by
        have trimmed := Text.length_trimStart_le inner
        rw [← opened] at trimmed
        simp only [whole, List.length_append, List.length_cons, List.length_nil] at trimmed ⊢
        omega
      have again := dropAttributes_attributeText rest behind
      have written : attributeText rest ++ behind = trimStart inner ++ ']' :: ' ' :: behind := by
        simp [attributeText, ← opened]
      rw [written] at again
      simpa [← opened] using again
    · refine ⟨fun ⟨rest, inside, _⟩ => absurd ⟨rest, inside.symm⟩ opened, fun _ => ⟨trimStart inner, ?_⟩⟩
      exact dropAttributes_of_not_prefix (mt (opening_prefix_append_iff _ _).mp opened)
  · refine ⟨fun _ => ?_, fun never => absurd (reopens_of_not_mem member) never⟩
    rw [attributeText, List.cons_append, List.cons_append, List.append_assoc]
    exact dropAttributes_append member _
termination_by content.length

theorem balanced_attributesText {contents : List (List Char)}
    (balanced : ∀ content ∈ contents, Balanced true content) :
    Balanced false (contents.flatMap attributeText) := by
  induction contents with
  | nil => exact .nil
  | cons content contents ih =>
    obtain ⟨first, others⟩ := List.forall_mem_cons.mp balanced
    have bracketed : Balanced false ('[' :: (content ++ [']', ' '])) :=
      .bracketed (by decide) (by decide) first (.plain (by decide) (by decide) .nil)
    have one : Balanced false (attributeText content) := .plain (by decide) (by decide) bracketed
    exact one.append (ih others)

/-- Attributes are dropped altogether if each is dropped as a whole, and reading begins inside of the first one
that is not. -/
theorem dropAttributes_attributesText (contents : List (List Char)) (behind : List Char) :
    ((∀ content ∈ contents, Reopens content) →
      dropAttributes (trimStart (contents.flatMap attributeText ++ behind)) =
        dropAttributes (trimStart behind)) ∧
    ((¬∀ content ∈ contents, Reopens content) → ∃ front middle,
      dropAttributes (trimStart (contents.flatMap attributeText ++ behind)) =
        front ++ ']' :: (middle ++ behind)) := by
  induction contents with
  | nil => simp
  | cons content contents ih =>
    have starts : trimStart ((content :: contents).flatMap attributeText ++ behind) =
        attributeText content ++ (contents.flatMap attributeText ++ behind) := by
      rw [List.flatMap_cons, List.append_assoc]
      exact Text.trimStart_of_solid (by rintro c ⟨⟩; decide)
    obtain ⟨whole, inside⟩ := dropAttributes_attributeText content (contents.flatMap attributeText ++ behind)
    rw [starts, List.forall_mem_cons]
    by_cases reopens : Reopens content
    · rw [whole reopens]
      simpa [reopens] using ih
    · obtain ⟨front, left⟩ := inside reopens
      exact ⟨fun all => absurd all.1 reopens, fun _ => ⟨front, ' ' :: contents.flatMap attributeText, left⟩⟩

/-- What is read depends on the text behind the attributes alone. -/
theorem parseOne?_congr {first second : List Char}
    (same : dropAttributes (trim first) = dropAttributes (trim second)) :
    parseOne? first = parseOne? second := by
  have enough (piece : List Char) : (dropAttributes (trim piece)).length ≤ piece.length :=
    (length_dropAttributes_le _).trans (Text.length_trim_le piece)
  have modifiers : dropModifiers first.length (dropAttributes (trim first)) =
      dropModifiers second.length (dropAttributes (trim second)) := by
    rw [dropModifiers_of_le le_rfl (enough first), dropModifiers_of_le le_rfl (enough second), same]
  rw [parseOne?, parseOne?, modifiers]

end ParameterList

/-- What stands between two separating commas: blanks, the contents of attributes, and what they belong to. -/
structure AttributedPiece where
  indent : List Char
  attributes : List (List Char)
  rest : List Char

namespace AttributedPiece

open ParameterList
open FusionAtlas.Text (EndsSolid isBlank trim trimEnd trimStart)

/-- The piece without the attributes. -/
def bare (piece : AttributedPiece) : List Char := piece.indent ++ piece.rest

/-- The piece with its attributes. -/
def text (piece : AttributedPiece) : List Char :=
  piece.indent ++ (piece.attributes.flatMap attributeText ++ piece.rest)

/-- Brackets and quotes of an attribute are closed, and a piece that is not blank reads as a parameter without
the attributes. -/
structure WellFormed (piece : AttributedPiece) : Prop where
  indent : ∀ c ∈ piece.indent, isBlank c = true
  attributes : ∀ content ∈ piece.attributes, Balanced true content
  read : trim piece.bare ≠ [] → (parseOne? piece.bare).isSome
  blank : trim piece.bare = [] → piece.attributes = []

variable {piece : AttributedPiece} {pieces : List AttributedPiece} {raw : List Char}

/-- To a scan for commas the attributes are nothing. -/
theorem kept_text (shape : piece.WellFormed) :
    (Uncut .outside piece.bare → Uncut .outside piece.text) ∧
      Nesting.outside.behind piece.text = Nesting.outside.behind piece.bare := by
  have blanks : Balanced false piece.indent := .of_class (by decide) shape.indent
  obtain ⟨-, indentSame⟩ := blanks.kept 0 (by simp)
  obtain ⟨uncut, same⟩ := (balanced_attributesText shape.attributes).kept 0 (by simp)
  simp only [text, bare, uncut_append, Nesting.behind_append, Nesting.outside, indentSame, same]
  exact ⟨fun ⟨indentUncut, restUncut⟩ => ⟨indentUncut, uncut, restUncut⟩, trivial⟩

/-- A parameter is the same with attributes in front exactly if each of them is dropped as a whole. -/
theorem parseOne?_text_iff (shape : piece.WellFormed) :
    parseOne? piece.text = parseOne? piece.bare ↔ ∀ content ∈ piece.attributes, Reopens content := by
  by_cases blank : trim piece.bare = []
  · simp [text, bare, shape.blank blank]
  · obtain ⟨parameter, read⟩ := Option.isSome_iff_exists.mp (shape.read blank)
    have bareTrimmed : trim piece.bare = trimStart (trimEnd piece.rest) := by
      rw [bare, Text.trim_append _ shape.indent, Text.trim_eq]
    have solid : EndsSolid (trimEnd piece.rest) := by
      refine (Text.trimEnd_eq_nil_or_endsSolid piece.rest).resolve_left fun none => blank ?_
      rw [bareTrimmed, none]
      rfl
    have textTrimmed : trim piece.text =
        trimStart (piece.attributes.flatMap attributeText ++ trimEnd piece.rest) := by
      rw [text, Text.trim_append _ shape.indent, Text.trim_eq, Text.trimEnd_append_of_endsSolid _ solid]
    obtain ⟨whole, inside⟩ := dropAttributes_attributesText piece.attributes (trimEnd piece.rest)
    rw [← textTrimmed, ← bareTrimmed] at whole
    rw [← textTrimmed] at inside
    refine ⟨fun same => by_contra fun stuck => ?_, fun all => parseOne?_congr (whole all)⟩
    -- The default value would hold the bracket and all of the parameter behind it.
    obtain ⟨front, middle, left⟩ := inside stuck
    obtain ⟨textRest, textSkips, textDefault⟩ := exists_skips_default (same.trans read)
    obtain ⟨bareRest, bareSkips, bareDefault⟩ := exists_skips_default read
    rw [left] at textSkips
    obtain ⟨more, rfl⟩ := textSkips.keeps
    obtain ⟨value, given, long⟩ := readDefault?_bracket (solid.append middle) textDefault
    rw [given] at bareDefault
    have short := length_le_of_readDefault? bareDefault
    have skipped := bareSkips.length_le
    have dropped := length_dropAttributes_le (trim piece.bare)
    have trimmed := Text.length_trimStart_le (trimEnd piece.rest)
    rw [bareTrimmed] at dropped skipped
    rw [List.length_append] at long
    omega

/-- A list reads as it does without the attributes exactly if behind each closing bracket in an attribute
another attribute opens. -/
theorem parse_attributed (divided : ParameterList.pieces raw = pieces.map bare)
    (shape : ∀ piece ∈ pieces, piece.WellFormed) :
    parse ([','].intercalate (pieces.map text)) = parse raw ↔
      ∀ piece ∈ pieces, ∀ content ∈ piece.attributes, Reopens content := by
  obtain ⟨bareDivided, -⟩ := pieces_eq_iff.mp divided
  have found : ParameterList.pieces ([','].intercalate (pieces.map text)) = pieces.map text :=
    (bareDivided.map fun piece listed => kept_text (shape piece listed)).pieces
  have missing : ∀ piece ∈ pieces, (parseOne? ∘ bare) piece = none → (parseOne? ∘ text) piece = none := by
    intro piece listed unread
    rw [Function.comp_apply] at unread ⊢
    have blank : trim piece.bare = [] := by_contra fun written => by
      simpa [unread] using (shape piece listed).read written
    have none := (shape piece listed).blank blank
    rw [(parseOne?_text_iff (shape piece listed)).mpr (by simp [none]), unread]
  rw [parse_eq_filterMap, parse_eq_filterMap, found, divided, List.filterMap_map, List.filterMap_map,
    filterMap_eq_filterMap_iff missing]
  exact forall₂_congr fun piece listed => parseOne?_text_iff (shape piece listed)

/-- A quoted closing bracket behind which an attribute seems to open. -/
theorem parse_attributed_quoted :
    parse "#[A(1)] int $x, #[B] #[C(']#[')] $y = 3".toList = parse "int $x, $y = 3".toList := by
  have call : Balanced true ('A' :: '(' :: (['1'] ++ ')' :: [])) :=
    .plain (by decide) (by decide) (.bracketed (by decide) (by decide) (.of_plain (by decide)) .nil)
  have quoted : Quoted '\'' "]#['".toList :=
    .plain (by decide) (by decide) (.plain (by decide) (by decide) (.plain (by decide) (by decide) .close))
  have quotedCall : Balanced true ('C' :: '(' :: (('\'' :: ("]#['".toList ++ [])) ++ ')' :: [])) :=
    .plain (by decide) (by decide)
      (.bracketed (by decide) (by decide) (.quoted (by decide) quoted .nil) .nil)
  have first : WellFormed ⟨[], ["A(1)".toList], "int $x".toList⟩ :=
    ⟨by decide, List.forall_mem_singleton.mpr call, by decide +kernel, by decide +kernel⟩
  have second : WellFormed ⟨[' '], ["B".toList, "C(']#[')".toList], "$y = 3".toList⟩ :=
    ⟨by decide, List.forall_mem_cons.mpr ⟨.of_plain (by decide), List.forall_mem_singleton.mpr quotedCall⟩,
      by decide +kernel, by decide +kernel⟩
  have shape := List.forall_mem_cons.mpr ⟨first, List.forall_mem_singleton.mpr second⟩
  have reopens : Reopens ("C('".toList ++ ']' :: "#[')".toList) :=
    (reopens_append_iff (by decide)).mpr ⟨"')".toList, rfl, reopens_of_not_mem (by decide)⟩
  have firstWhole : ∀ content ∈ ["A(1)".toList], Reopens content :=
    List.forall_mem_singleton.mpr (reopens_of_not_mem (by decide))
  have secondWhole : ∀ content ∈ ["B".toList, "C(']#[')".toList], Reopens content :=
    List.forall_mem_cons.mpr ⟨reopens_of_not_mem (by decide), List.forall_mem_singleton.mpr reopens⟩
  exact (parse_attributed (by decide) shape).mpr
    (List.forall_mem_cons.mpr ⟨firstWhole, List.forall_mem_singleton.mpr secondWhole⟩)

/-- A parameter is lost as its attribute holds brackets of its own, though these are closed. -/
theorem parse_brackets_in_attribute :
    Balanced true "Choice([1, 2])".toList ∧
      parse "int $x, $y = 3".toList = [⟨some "int", false, "x", none⟩, ⟨none, false, "y", some "3"⟩] ∧
      parse "#[Choice([1, 2])] int $x, $y = 3".toList = [⟨none, false, "y", some "3"⟩] := by
  have items : Balanced true ('1' :: ',' :: " 2".toList) :=
    .plain (by decide) (by decide) (.plain (by decide) (by decide) (.of_plain (by decide)))
  have list : Balanced true ('[' :: ("1, 2".toList ++ ']' :: [])) :=
    .bracketed (by decide) (by decide) items .nil
  have arguments : Balanced true ('(' :: ("[1, 2]".toList ++ ')' :: [])) :=
    .bracketed (by decide) (by decide) list .nil
  have name : Balanced true "Choice".toList := .of_plain (by decide)
  exact ⟨name.append arguments, by decide +kernel, by decide +kernel⟩

end AttributedPiece

end FusionAtlas
