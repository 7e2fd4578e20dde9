import FusionAtlas.Proofs.DocComments

/-!
What a comment says of the value a method returns. The last line that begins with `@return` and goes on with
something else than blanks tells the type and a text, also if the type stands right behind the mark as the
rest of a longer tag. Main statements: `DocBlock.returnTag?_eq_some_iff`, `DocBlock.returnTag_parse` and
`DocBlock.blockAt_return_tag`.
-/

set_option autoImplicit false
set_option relaxedAutoImplicit false

namespace FusionAtlas

open FusionAtlas.Text (EndsSolid afterOpening? isBlank trim trimEnd trimStart)

/-- The last of the items for which a function is defined. -/
theorem getLast?_filterMap_eq_some_iff {α β : Type} {f : α → Option β} {items : List α} {b : β} :
    (items.filterMap f).getLast? = some b ↔ ∃ earlier item later,
      items = earlier ++ item :: later ∧ f item = some b ∧ ∀ other ∈ later, f other = none := by
  rw [List.getLast?_eq_some_iff]
  constructor
  · rintro ⟨front, values⟩
    obtain ⟨before, after, rfl, -, last⟩ := List.filterMap_eq_append_iff.mp values
    obtain ⟨missed, item, later, rfl, -, given, none⟩ := List.filterMap_eq_cons_iff.mp last
    exact ⟨before ++ missed, item, later, (List.append_assoc ..).symm, given,
      List.filterMap_eq_nil_iff.mp none⟩
  · rintro ⟨earlier, item, later, rfl, given, none⟩
    refine ⟨earlier.filterMap f, ?_⟩
    rw [List.filterMap_append, List.filterMap_cons_some given, List.filterMap_eq_nil_iff.mpr none]

namespace DocBlock

variable {body line gap rest : List Char} {tag : ReturnTag}

/-- The lines of a comment, without the blanks around them and the stars in front. -/
def cleanLines (body : List Char) : List (List Char) := (body.splitOn '\n').map cleanLine

/-- What stands in front of the first blank. -/
def firstWord (line : List Char) : List Char := line.takeWhile fun c => !isBlank c

theorem isBlank_of_mem_firstWord {c : Char} (member : c ∈ firstWord line) : isBlank c = false := by
  simpa using List.mem_takeWhile_imp member

/-- What stands behind the first word begins with a blank. -/
theorem exists_eq_firstWord_append (line : List Char) :
    ∃ rest, line = firstWord line ++ rest ∧ ∀ c ∈ rest.head?, isBlank c = true := by
  refine ⟨line.dropWhile fun c => !isBlank c, List.takeWhile_append_dropWhile.symm, fun c first => ?_⟩
  have stops := List.head?_dropWhile_not (fun c => !isBlank c) line
  rw [Option.mem_def.mp first] at stops
  simpa using stops

theorem firstWord_append {word : List Char} (solid : ∀ c ∈ word, isBlank c = false)
    (ends : ∀ c ∈ rest.head?, isBlank c = true) : firstWord (word ++ rest) = word :=
  Text.takeWhile_append_of_head (fun c member => by simp [solid c member]) fun c first => by
    simp [ends c first]

/-- A line that begins with `@return` and goes on, perhaps behind blanks, with the type, which ends at the
next blank. What follows is the text, unless it is blank. -/
def Gives (line : List Char) (tag : ReturnTag) : Prop :=
  ∃ gap rest, line = "@return".toList ++ gap ++ tag.type ++ rest ∧ (∀ c ∈ gap, isBlank c = true) ∧
    tag.type ≠ [] ∧ (∀ c ∈ tag.type, isBlank c = false) ∧ (∀ c ∈ rest.head?, isBlank c = true) ∧
    tag.text = if (trim rest).isEmpty then none else some (trim rest)

/-- Blanks in front of a type are dropped, and those behind it with what follows. -/
theorem trim_type {type : List Char} (written : type ≠ []) (solid : ∀ c ∈ type, isBlank c = false)
    (blank : ∀ c ∈ gap, isBlank c = true) : trim (gap ++ type ++ rest) = type ++ trimEnd rest := by
  obtain ⟨front, last, rfl⟩ := (List.eq_nil_or_concat' type).resolve_left written
  have ends : EndsSolid (front ++ [last]) := ⟨front, last, rfl, solid last (by simp)⟩
  have starts : trimStart (front ++ [last] ++ rest) = front ++ [last] ++ rest := by
    refine Text.trimStart_of_solid fun c first => ?_
    cases front with
    | nil => exact solid c (by simpa using Option.some.inj first.symm)
    | cons d front => exact solid c (by simp [Option.some.inj first.symm])
  rw [List.append_assoc, Text.trim_append _ blank, trim, starts, Text.trimEnd_append ends]

/-- The type is the first word of what stands behind the mark. -/
theorem returnTag?_append {behind type text : List Char} (word : firstWord (trim behind) = type)
    (whole : trim behind = type ++ text) :
    returnTag? ("@return".toList ++ behind) = if type.isEmpty then none
      else some ⟨type, if (trim text).isEmpty then none else some (trim text)⟩ := by
  have left : (trim behind).drop type.length = text := by rw [whole, List.drop_left]
  rw [firstWord] at word
  simp only [returnTag?, Text.afterOpening?_append, Option.bind_eq_bind, Option.bind_some, word, left]

theorem returnTag?_eq_some_iff : returnTag? line = some tag ↔ Gives line tag := by
  constructor
  · intro told
    obtain ⟨behind, opens, -⟩ := Option.bind_eq_some_iff.mp told
    obtain rfl := Text.afterOpening?_eq_some opens
    obtain ⟨gap, start, blank⟩ := Text.exists_eq_append_trimStart behind
    obtain ⟨blanks, stop, allBlank⟩ := Text.exists_eq_trimEnd_append (trimStart behind)
    obtain ⟨rest, parts, ends⟩ := exists_eq_firstWord_append (trim behind)
    rw [returnTag?_append rfl parts] at told
    split at told
    · cases told
    · rename_i written
      obtain rfl := Option.some.inj told
      refine ⟨gap, rest ++ blanks, ?_, blank, by simpa using written, fun c => isBlank_of_mem_firstWord,
        fun c first => ?_, by rw [Text.trim_append_blanks rest allBlank]⟩
      · calc "@return".toList ++ behind = "@return".toList ++ (gap ++ (trim behind ++ blanks)) := by
              rw [trim, ← stop, ← start]
          _ = "@return".toList ++ (gap ++ (firstWord (trim behind) ++ rest ++ blanks)) := by rw [← parts]
          _ = _ := by simp only [List.append_assoc]
      · cases rest with
        | nil => exact allBlank c (List.mem_of_head? first)
        | cons d others => exact ends c first
  · rintro ⟨gap, rest, rfl, blank, written, solid, ends, text⟩
    obtain ⟨blanks, cut, allBlank⟩ := Text.exists_eq_trimEnd_append rest
    have outside : ∀ c ∈ (trimEnd rest).head?, isBlank c = true := by
      intro c first
      refine ends c ?_
      rw [cut, List.head?_append]
      simp [Option.mem_def.mp first]
    have trimmed : trim (trimEnd rest) = trim rest := by
      conv => rhs; rw [cut]
      rw [Text.trim_append_blanks _ allBlank]
    have whole : trim (gap ++ tag.type ++ rest) = tag.type ++ trimEnd rest := trim_type written solid blank
    have word : firstWord (trim (gap ++ tag.type ++ rest)) = tag.type := by
      rw [whole, firstWord_append solid outside]
    have assembled := returnTag?_append word whole
    rw [if_neg (by simpa using written), trimmed, ← text] at assembled
    simpa only [List.append_assoc] using assembled

theorem not_gives_of_none (none : returnTag? line = none) (tag : ReturnTag) : ¬Gives line tag := fun gives => by
  rw [returnTag?_eq_some_iff.mpr gives] at none
  cases none

/-- The tag of a comment is that of the last line that gives one. -/
theorem returnTag_parse :
    (parse body).returnTag = some tag ↔ ∃ earlier line later,
      cleanLines body = earlier ++ line :: later ∧ Gives line tag ∧
        ∀ other ∈ later, ∀ tag, ¬Gives other tag := by
  have same (line : List Char) : returnTag? line = none ↔ ∀ tag, ¬Gives line tag := by
    rw [Option.eq_none_iff_forall_ne_some]
    exact forall_congr' fun tag => not_congr returnTag?_eq_some_iff
  change ((cleanLines body).filterMap returnTag?).getLast? = some tag ↔ _
  simp only [getLast?_filterMap_eq_some_iff, returnTag?_eq_some_iff, same]

/-- The first word of a line that gives a tag is the mark, unless the type is part of that word. -/
theorem firstWord_of_gives (gives : Gives line tag) (longer : firstWord line ≠ "@return".toList) :
    firstWord line = "@return".toList ++ tag.type := by
  obtain ⟨gap, rest, rfl, blank, -, solid, ends, -⟩ := gives
  have mark : ∀ c ∈ "@return".toList, isBlank c = false := by decide
  cases gap with
  | nil =>
    rw [List.append_nil]
    exact firstWord_append (List.forall_mem_append.mpr ⟨mark, solid⟩) ends
  | cons c gap =>
    refine absurd ?_ longer
    rw [List.append_assoc, List.append_assoc]
    refine firstWord_append mark fun d first => ?_
    obtain rfl := Option.some.inj first
    exact blank c (List.mem_cons_self ..)

/-- Lines that give a tag behind a longer word do not matter if a line with the mark on its own stands
behind each of them. -/
theorem returnTag_parse_of_covered
    (covered : ∀ earlier line later tag, cleanLines body = earlier ++ line :: later → Gives line tag →
      firstWord line = "@return".toList ++ tag.type →
        ∃ other ∈ later, firstWord other = "@return".toList ∧ ∃ tag, Gives other tag) :
    (parse body).returnTag = some tag ↔ ∃ earlier line later,
      cleanLines body = earlier ++ line :: later ∧ firstWord line = "@return".toList ∧ Gives line tag ∧
        ∀ other ∈ later, firstWord other = "@return".toList → ∀ tag, ¬Gives other tag := by
  rw [returnTag_parse]
  constructor
  · rintro ⟨earlier, line, later, lines, gives, last⟩
    refine ⟨earlier, line, later, lines, ?_, gives, fun other member _ => last other member⟩
    by_contra longer
    obtain ⟨other, member, -, tag', also⟩ :=
      covered earlier line later tag lines gives (firstWord_of_gives gives longer)
    exact last other member tag' also
  · rintro ⟨earlier, line, later, lines, -, gives, last⟩
    refine ⟨earlier, line, later, lines, gives, fun other member tag' also => ?_⟩
    by_cases own : firstWord other = "@return".toList
    · exact last other member own tag' also
    · obtain ⟨front, behind, rfl⟩ := List.append_of_mem member
      obtain ⟨next, among, proper, tag'', further⟩ := covered (earlier ++ line :: front) other behind tag'
        (by rw [lines, List.append_assoc, List.cons_append]) also (firstWord_of_gives also own)
      exact last next (by simp [among]) proper tag'' further

/-- The comment in front of a signature tells what the method returns on the last line that begins with
`@return` and has a type behind it, and describes the method by its other lines that are not empty and do
not begin with `@`. The type may stand right behind the mark, as the rest of a longer tag: only where a line
with the mark as a word of its own stands behind each such line, it is the last of these lines that tells. -/
theorem blockAt_return_tag {source front body lead : List Char} {offset : Nat}
    (cut : Text.takeBytes source offset =
      some (front ++ "/**".toList ++ body ++ "*/".toList ++ lead))
    (shape : IsLead lead) (only : ¬"/**".toList <:+: body) :
    ∃ block, (Text.takeBytes source offset).bind before? = some block ∧
      (∀ tag, block.returnTag = some tag ↔ ∃ earlier line later,
        cleanLines body = earlier ++ line :: later ∧ Gives line tag ∧
          ∀ other ∈ later, ∀ tag, ¬Gives other tag) ∧
      ((∀ earlier line later tag, cleanLines body = earlier ++ line :: later → Gives line tag →
          firstWord line = "@return".toList ++ tag.type →
            ∃ other ∈ later, firstWord other = "@return".toList ∧ ∃ tag, Gives other tag) →
        ∀ tag, block.returnTag = some tag ↔ ∃ earlier line later,
          cleanLines body = earlier ++ line :: later ∧ firstWord line = "@return".toList ∧
            Gives line tag ∧
            ∀ other ∈ later, firstWord other = "@return".toList → ∀ tag, ¬Gives other tag) ∧
      block.description =
        ['\n'].intercalate ((cleanLines body).filter fun line => line ≠ [] ∧ line.head? ≠ some '@') := by
  have found : (Text.takeBytes source offset).bind before? = some (parse body) := by
    rw [cut, Option.bind_some]
    exact before?_eq_some_iff.mpr ⟨front, body, lead, rfl, shape, only, rfl⟩
  refine ⟨parse body, found, fun tag => returnTag_parse, fun covered tag => returnTag_parse_of_covered covered,
    ?_⟩
  have kept : isDescription = fun line => decide (line ≠ [] ∧ line.head? ≠ some '@') := by
    funext line
    rw [Bool.eq_iff_iff]
    cases line <;> simp [isDescription]
  rw [← kept]
  rfl

private def levelBody : List Char :=
  "\n * Level.\n * @returned float the pressure\n * @return int[] the levels\n ".toList

/-- A tag of another name is passed over because the return tag stands behind it. -/
theorem blockAt_return_tag_level :
    IsLead ['\n'] ∧ ¬"/**".toList <:+: levelBody ∧
      ∃ block, (Text.takeBytes ("/**".toList ++ levelBody ++ "*/\npublic".toList) 78).bind before? = some block ∧
        block.returnTag = some ⟨"int[]".toList, some "the levels".toList⟩ ∧
        block.description = "Level.".toList := by
  have lead : IsLead ['\n'] := ⟨[], [], ['\n'], rfl, .nil, .nil, by decide⟩
  have only : ¬"/**".toList <:+: levelBody := by decide +kernel
  have cut : Text.takeBytes ("/**".toList ++ levelBody ++ "*/\npublic".toList) 78 =
      some ([] ++ "/**".toList ++ levelBody ++ "*/".toList ++ ['\n']) := by decide +kernel
  obtain ⟨block, found, told, covered, described⟩ := blockAt_return_tag cut lead only
  have lines : cleanLines levelBody = [[], "Level.".toList, "@returned float the pressure".toList] ++
      "@return int[] the levels".toList :: [[]] := by decide +kernel
  have last : Gives "@return int[] the levels".toList ⟨"int[]".toList, some "the levels".toList⟩ :=
    returnTag?_eq_some_iff.mp (by decide +kernel)
  have none : ∀ line ∈ [[]], ∀ tag, ¬Gives line tag := by
    intro line member
    rw [List.mem_singleton.mp member]
    exact not_gives_of_none rfl
  have tag : block.returnTag = some ⟨"int[]".toList, some "the levels".toList⟩ :=
    (told _).mpr ⟨_, _, _, lines, last, none⟩
  exact ⟨lead, only, block, found, tag, described.trans (by decide +kernel)⟩

private def longerTagBody : List Char := "\n     * @returns string\n     ".toList

private def longerTagSource : ClassSource :=
  ⟨"<?php\nnamespace Acme;\nclass Pump\n\x7b\n    /**".toList ++ longerTagBody ++
    "*/\n    public function label(): int \x7b\x7d\n\x7d\n".toList⟩

/-- A method without a return tag is taken to return a class that is named by the last letter of another
tag, and not what its signature says. -/
theorem return_tag_of_longer_word :
    (∃ front lead, Text.takeBytes longerTagSource.text 78 =
        some (front ++ "/**".toList ++ longerTagBody ++ "*/".toList ++ lead) ∧ IsLead lead) ∧
      ¬"/**".toList <:+: longerTagBody ∧
      (∀ line ∈ cleanLines longerTagBody, firstWord line ≠ "@return".toList) ∧
      (Text.takeBytes longerTagSource.text 78).bind before? =
        some ⟨[], some ⟨"s".toList, some "string".toList⟩⟩ ∧
      (longerTagSource.methods (LineIndex.ofChars longerTagSource.text) "Acme" []).map
          (fun method => (method.name, method.returnType, method.returnDescription)) =
        [("label", .classRef "Acme\\s", some "string")] := by
  have blanks : ∀ c ∈ "\n    ".toList, isBlank c = true := by decide
  exact ⟨⟨longerTagSource.text.take 39, "\n    ".toList, by decide +kernel,
    [], [], "\n    ".toList, rfl, .nil, .nil, blanks⟩, by decide +kernel, by decide +kernel,
    by decide +kernel, by decide +kernel⟩

end DocBlock

end FusionAtlas
