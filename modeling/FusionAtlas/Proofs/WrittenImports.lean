import FusionAtlas.Proofs.Scanning
import FusionAtlas.Proofs.TextCut
import Mathlib.Data.List.Flatten

/-!
Import statements that were written one by one. A statement is found in its line and nowhere else, and its
body stands for the class that was imported. Main statements: `WrittenImport.ofBody?_body` and
`WrittenImport.statement_text`.
-/

set_option autoImplicit false
set_option relaxedAutoImplicit false

namespace FusionAtlas

namespace Text

theorem trim_of_forall {text : List Char} (solid : ∀ c ∈ text, isBlank c = false) : trim text = text := by
  rcases List.eq_nil_or_concat' text with rfl | ⟨front, c, rfl⟩
  · rfl
  · rw [trim, trimStart_of_solid fun d first => solid d (List.mem_of_head? first)]
    exact EndsSolid.trimEnd ⟨front, c, rfl, solid c (by simp)⟩

/-- A mark is found at its first character. -/
theorem splitFirst?_eq_none {c : Char} {mark text : List Char} (absent : c ∉ text) :
    splitFirst? (c :: mark) text = none := by
  induction text with
  | nil => rfl
  | cons d text ih =>
    rw [List.mem_cons, not_or] at absent
    simp [splitFirst?, afterOpening?, absent.1, ih absent.2]

theorem splitFirst?_append {c : Char} {mark front : List Char} (absent : c ∉ front)
    (behind : List Char) :
    splitFirst? (c :: mark) (front ++ (c :: mark ++ behind)) = some (front, behind) := by
  induction front with
  | nil =>
    rw [List.nil_append, List.cons_append, splitFirst?, ← List.cons_append, afterOpening?_append]
  | cons d front ih =>
    rw [List.mem_cons, not_or] at absent
    rw [List.cons_append, splitFirst?, ih absent.2]
    simp [afterOpening?, absent.1]

theorem afterLast_append_mark (mark : Char) (front behind : List Char) :
    afterLast mark (front ++ mark :: behind) = afterLast mark behind := by
  induction front with
  | nil =>
    rw [List.nil_append, afterLast_cons]
    split
    · rfl
    · rename_i absent
      rw [if_pos rfl, afterLast_of_not_mem absent]
  | cons c front ih => rw [List.cons_append, afterLast_cons, if_pos (by simp), ih]

end Text

open Text (isBlank isWord words)

/-- The words that tell classes, methods and imports of other things. No name is one of them. -/
def searchedWords : List String := ["class", "function", "const"]

/-- A name of a class, a part of a namespace or another name. -/
structure IsName (name : List Char) : Prop where
  written : name ≠ []
  word : ∀ c ∈ name, isWord c = true
  free : String.ofList name ∉ searchedWords

instance decidableIsName (name : List Char) : Decidable (IsName name) :=
  decidable_of_iff
    (name ≠ [] ∧ (∀ c ∈ name, isWord c = true) ∧ String.ofList name ∉ searchedWords)
    ⟨fun ⟨written, word, free⟩ => ⟨written, word, free⟩,
      fun ⟨written, word, free⟩ => ⟨written, word, free⟩⟩

/-- Names that make up a full name. -/
inductive IsPath : List (List Char) → Prop
  | one {name : List Char} : IsName name → IsPath [name]
  | join {first second : List Char} {others : List (List Char)} : IsName first →
      IsPath (second :: others) → IsPath (first :: second :: others)

/-- A full name as it is written. -/
def pathText (parts : List (List Char)) : List Char := ['\\'].intercalate parts

theorem pathText_singleton (name : List Char) : pathText [name] = name := List.intercalate_singleton

theorem pathText_cons_cons (first second : List Char) (others : List (List Char)) :
    pathText (first :: second :: others) = first ++ '\\' :: pathText (second :: others) := by
  simp [pathText, List.intercalate_cons_cons]

namespace IsPath

variable {parts : List (List Char)}

/-- The text starts with a name, and goes on with nothing that belongs to it. -/
theorem exists_first (shape : IsPath parts) :
    ∃ name rest, pathText parts = name ++ rest ∧ IsName name ∧ ∀ c ∈ rest.head?, c = '\\' := by
  cases shape with
  | one name => exact ⟨_, [], by simp [pathText], name, by simp⟩
  | join name _ => exact ⟨_, _, pathText_cons_cons .., name, by simp⟩

theorem mem_pathText (shape : IsPath parts) {c : Char} (member : c ∈ pathText parts) :
    isWord c = true ∨ c = '\\' := by
  induction shape with
  | one name =>
    rw [pathText_singleton] at member
    exact Or.inl (name.word c member)
  | join name _ ih =>
    rw [pathText_cons_cons] at member
    rcases List.mem_append.mp member with inFirst | rest
    · exact Or.inl (name.word c inFirst)
    · exact (List.mem_cons.mp rest).elim Or.inr ih

/-- The words of a full name are the names it is made of. -/
theorem words_pathText (shape : IsPath parts) : words (pathText parts) = parts := by
  induction shape with
  | one name => rw [pathText_singleton, Text.words_of_word name.word]
  | join name _ ih =>
    rw [pathText_cons_cons, Text.words_append_cons (by decide), Text.words_of_word name.word, ih,
      List.singleton_append]

theorem exists_concat (shape : IsPath parts) : ∃ front name, parts = front ++ [name] := by
  refine (List.eq_nil_or_concat' parts).resolve_left ?_
  cases shape <;> simp

theorem name_of_mem (shape : IsPath parts) : ∀ name ∈ parts, IsName name := by
  induction shape with
  | one name => simpa using name
  | join name _ ih => exact List.forall_mem_cons.mpr ⟨name, ih⟩

/-- A class is known by the last name of its full name. -/
theorem afterLast_pathText (shape : IsPath parts) :
    Text.afterLast '\\' (pathText parts) = parts.getLastD [] := by
  induction shape with
  | one name =>
    rw [pathText_singleton]
    refine Text.afterLast_of_not_mem fun member => ?_
    exact absurd (name.word '\\' member) (by decide)
  | join name _ ih =>
    rw [pathText_cons_cons, Text.afterLast_append_mark, ih]
    rfl

theorem not_blank (shape : IsPath parts) : ∀ c ∈ pathText parts, isBlank c = false := by
  intro c member
  rcases shape.mem_pathText member with word | rfl
  · exact Text.isBlank_of_isWord word
  · decide

/-- The text is not empty, and starts with no backslash. -/
theorem exists_cons (shape : IsPath parts) : ∃ c rest, pathText parts = c :: rest ∧ isWord c = true := by
  obtain ⟨name, rest, whole, shape, -⟩ := shape.exists_first
  obtain ⟨c, more, rfl⟩ := List.exists_cons_of_ne_nil shape.written
  exact ⟨c, more ++ rest, whole, shape.word c (by simp)⟩

end IsPath

/-- An import statement as it is written. -/
structure WrittenImport where
  path : List (List Char)
  knownAs : Option (List Char)
  deriving DecidableEq, Repr

namespace WrittenImport

/-- What stands between the word `use` and the semicolon. -/
def body (written : WrittenImport) : List Char :=
  pathText written.path ++ (written.knownAs.map (" as ".toList ++ ·)).getD []

/-- The statement on its line. -/
def text (written : WrittenImport) : List Char := "use ".toList ++ written.body ++ ";\n".toList

/-- The class that was imported, known by its own name unless another one is given. -/
def declared (written : WrittenImport) : Import :=
  ⟨String.ofList (pathText written.path), String.ofList (written.knownAs.getD (written.path.getLastD []))⟩

/-- The path and the name it goes by are made of names. -/
structure WellFormed (written : WrittenImport) : Prop where
  path : IsPath written.path
  knownAs : ∀ name, written.knownAs = some name → IsName name

variable {written : WrittenImport}

/-- The body of a statement stands for what was imported. -/
theorem ofBody?_body (shape : written.WellFormed) : Import.ofBody? written.body = some written.declared := by
  obtain ⟨c, rest, spelled, word⟩ := shape.path.exists_cons
  have noBackslash : c ≠ '\\' := by
    rintro rfl
    exact absurd word (by decide)
  have noBlank : ' ' ∉ pathText written.path := by
    intro member
    exact absurd (shape.path.not_blank ' ' member) (by decide)
  have whole : (pathText written.path).dropWhile (· == '\\') = pathText written.path := by
    rw [spelled, List.dropWhile_cons_of_neg (by simpa using noBackslash)]
  have kept {knownAs : List Char} (named : knownAs ≠ []) :
      (if (pathText written.path).isEmpty || knownAs.isEmpty then none
        else some (Import.mk (String.ofList (pathText written.path)) (String.ofList knownAs))) =
      some ⟨String.ofList (pathText written.path), String.ofList knownAs⟩ := by
    rw [if_neg]
    simp [spelled, named]
  cases given : written.knownAs with
  | none =>
    have alone : written.body = pathText written.path := by simp [body, given]
    have last : written.path.getLastD [] ≠ [] := by
      obtain ⟨front, name, parts⟩ := shape.path.exists_concat
      have listed := shape.path.name_of_mem name (by simp [parts])
      simpa [parts] using listed.written
    rw [Import.ofBody?, alone, show " as ".toList = ' ' :: "as ".toList from rfl,
      Text.splitFirst?_eq_none noBlank]
    simp only [whole, shape.path.afterLast_pathText]
    rw [kept last, declared, given]
    rfl
  | some name =>
    have named := shape.knownAs name given
    have body : written.body = pathText written.path ++ (' ' :: "as ".toList ++ name) := by
      simp [body, given]
    rw [Import.ofBody?, body, show " as ".toList = ' ' :: "as ".toList from rfl,
      Text.splitFirst?_append noBlank]
    simp only [whole, Text.trim_of_forall shape.path.not_blank,
      Text.trim_of_forall fun c member => Text.isBlank_of_isWord (named.word c member)]
    rw [kept named.written, declared, given]
    rfl

/-- The body of a statement starts with a name. -/
theorem exists_first (shape : written.WellFormed) :
    ∃ name rest, written.body = name ++ rest ∧ IsName name ∧ ∀ c ∈ rest.head?, isWord c = false := by
  obtain ⟨name, rest, whole, named, stop⟩ := shape.path.exists_first
  refine ⟨name, rest ++ (written.knownAs.map (" as ".toList ++ ·)).getD [], ?_, named, fun c first => ?_⟩
  · rw [body, whole, List.append_assoc]
  · cases rest with
    | nil =>
      cases given : written.knownAs with
      | none => simp [given] at first
      | some other =>
        obtain rfl : ' ' = c := by simpa [given] using first
        decide
    | cons d rest =>
      obtain rfl : d = c := by simpa using first
      rw [stop d rfl]
      decide

/-- No other keyword stands behind `use`. -/
theorem bodyAfterKeyword?_body (shape : written.WellFormed) {keyword : String}
    (listed : keyword ∈ ["function", "const"]) : Import.bodyAfterKeyword? keyword written.body = none := by
  by_contra found
  obtain ⟨found, hit⟩ := Option.ne_none_iff_exists'.mp found
  simp only [Import.bodyAfterKeyword?, Option.bind_eq_bind, Option.bind_eq_some_iff] at hit
  obtain ⟨behind, opens, after, blanks, -⟩ := hit
  obtain ⟨name, rest, whole, named, stop⟩ := exists_first shape
  have spelled := Text.afterOpening?_eq_some opens
  obtain ⟨blank, more, rfl, allBlank⟩ := Text.afterBlanks?_eq_some blanks
  have letters : ∀ c ∈ keyword.toList, isWord c = true := by
    rcases List.mem_pair.mp listed with rfl | rfl <;> decide
  -- The name and the keyword are the same run of word characters.
  have runs : name = keyword.toList := by
    have nameRun : written.body.takeWhile isWord = name := by
      rw [whole, List.takeWhile_append_of_pos named.word]
      cases rest with
      | nil => simp
      | cons c rest => simp [stop c rfl]
    have keywordRun : written.body.takeWhile isWord = keyword.toList := by
      rw [spelled, List.takeWhile_append_of_pos letters, List.cons_append, List.takeWhile_cons_of_neg
        (by simp [Text.isWord_of_isBlank (allBlank blank (by simp))]), List.append_nil]
    exact nameRun.symm.trans keywordRun
  refine named.free ?_
  rw [runs, String.ofList_toList]
  exact List.mem_cons_of_mem "class" listed

theorem mem_body (shape : written.WellFormed) {c : Char} (member : c ∈ written.body) :
    isWord c = true ∨ c = '\\' ∨ c = ' ' := by
  rcases List.mem_append.mp member with inPath | inName
  · exact (shape.path.mem_pathText inPath).imp_right Or.inl
  · cases given : written.knownAs with
    | none => simp [given] at inName
    | some name =>
      rw [given, Option.map_some, Option.getD_some] at inName
      rcases List.mem_append.mp inName with inAs | inName
      · simp only [String.reduceToList, List.mem_cons, List.not_mem_nil, or_false] at inAs
        rcases inAs with rfl | rfl | rfl | rfl <;> decide
      · exact Or.inl ((shape.knownAs name given).word c inName)

theorem head?_body (shape : written.WellFormed) (rest : List Char) :
    ∀ c ∈ (written.body ++ rest).head?, isBlank c = false := by
  obtain ⟨c, more, spelled, word⟩ := shape.path.exists_cons
  rw [body, spelled]
  rintro d ⟨⟩
  exact Text.isBlank_of_isWord word

theorem trim_body (shape : written.WellFormed) : Text.trim written.body = written.body := by
  have start := head?_body shape []
  rw [List.append_nil] at start
  have ends {name : List Char} (named : IsName name) : Text.EndsSolid name := by
    obtain ⟨front, c, rfl⟩ := (List.eq_nil_or_concat' name).resolve_left named.written
    exact ⟨front, c, rfl, Text.isBlank_of_isWord (named.word c (by simp))⟩
  have stop : Text.EndsSolid written.body := by
    cases given : written.knownAs with
    | none =>
      obtain ⟨c, more, spelled, -⟩ := shape.path.exists_cons
      obtain ⟨front, d, whole⟩ := (List.eq_nil_or_concat' (pathText written.path)).resolve_left
        (by simp [spelled])
      exact ⟨front, d, by simp [body, given, whole], shape.path.not_blank d (by simp [whole])⟩
    | some name =>
      rw [body, given]
      exact .append _ (.append _ (ends (shape.knownAs name given)))
  rw [Text.trim, Text.trimStart_of_solid start, stop.trimEnd]

/-- A statement is found in its line. -/
theorem statement_text (shape : written.WellFormed) {before : Option Char}
    (start : Text.startsLine before = true) (rest : List Char) :
    Import.statement before ("use ".toList ++ written.body ++ [';'] ++ rest) =
      some ⟨written.body, ("use ".toList ++ written.body ++ [';']).length⟩ := by
  have inside : ∀ c ∈ written.body, (!Import.endsBody c) = true := by
    intro c member
    rcases mem_body shape member with word | rfl | rfl
    · by_contra ends
      simp only [Import.endsBody, Bool.not_eq_true, Bool.not_eq_false', Bool.or_eq_true, beq_iff_eq] at ends
      rcases ends with rfl | rfl <;> exact absurd word (by decide)
    · decide
    · decide
  have opens : Text.trimStart ("use ".toList ++ written.body ++ [';'] ++ rest) =
      "use".toList ++ ' ' :: (written.body ++ ';' :: rest) := by
    rw [Text.trimStart_of_solid (by rintro c ⟨⟩; decide)]
    simp
  have blanks : Text.afterBlanks? (' ' :: (written.body ++ ';' :: rest)) =
      some (written.body ++ ';' :: rest) := by
    rw [Text.afterBlanks?, if_pos (by decide), Text.trimStart_of_solid (head?_body shape _)]
  have taken : (written.body ++ ';' :: rest).takeWhile (fun c => !Import.endsBody c) = written.body := by
    rw [List.takeWhile_append_of_pos inside, List.takeWhile_cons_of_neg (by decide), List.append_nil]
  have named : written.body.isEmpty = false := by
    obtain ⟨c, more, spelled, -⟩ := shape.path.exists_cons
    simp [body, spelled]
  have function : Import.bodyAfterKeyword? "function" written.body = none :=
    bodyAfterKeyword?_body shape (by simp)
  have const : Import.bodyAfterKeyword? "const" written.body = none :=
    bodyAfterKeyword?_body shape (by simp)
  simp only [Import.statement, start, opens, Text.afterOpening?_append, blanks, taken, named,
    List.drop_left, function, const, Option.bind_eq_bind, Option.bind_some]
  simp [trim_body shape]
  omega

/-- No statement is found in a line whose first character tells that there is none. -/
theorem quiet_statement {before : Option Char} {indent line : List Char} {c : Char}
    (blank : ∀ d ∈ indent, isBlank d = true) (solid : isBlank c = false) (other : c ≠ 'u')
    (single : '\n' ∉ indent ++ c :: line) (rest : List Char) :
    Text.Quiet Import.statement before (indent ++ c :: line ++ ['\n']) rest := by
  refine .line (fun d text inside => ?_) ?_ single
  · simp [Import.statement, Text.startsLine, inside]
  · have opens : Text.trimStart (indent ++ c :: line ++ '\n' :: rest) = c :: (line ++ '\n' :: rest) := by
      rw [Text.trimStart, List.append_assoc, List.dropWhile_append_of_pos blank, List.cons_append,
        List.dropWhile_cons_of_neg (by simp [solid])]
    have noUse : Text.afterOpening? "use".toList (c :: (line ++ '\n' :: rest)) = none := by
      simp [Text.afterOpening?, Ne.symm other]
    simp only [Import.statement, opens, noUse, Option.bind_eq_bind, Option.bind_none]
    split <;> rfl

/-- The statements in lines behind each other are found one by one. -/
theorem scanFrom_texts {imports : List WrittenImport} (shape : ∀ written ∈ imports, written.WellFormed)
    (rest : List Char) (offset : Nat) :
    (Text.scanFrom Import.statement (some '\n') offset 0 (imports.flatMap text ++ rest)).map (·.value) =
      imports.map body ++
        (Text.scanFrom Import.statement (some '\n') (offset + Text.byteSize (imports.flatMap text)) 0
          rest).map (·.value) := by
  induction imports generalizing offset with
  | nil => simp [Text.byteSize]
  | cons written imports ih =>
    obtain ⟨first, others⟩ := List.forall_mem_cons.mp shape
    have line : (written :: imports).flatMap text ++ rest =
        ("use ".toList ++ written.body ++ [';']) ++
          (['\n'] ++ (imports.flatMap text ++ rest)) := by
      simp [text]
    have start : Text.startsLine (some '\n') = true := rfl
    have found := Text.scanFrom_hit (by simp)
      (statement_text first start (['\n'] ++ (imports.flatMap text ++ rest))) offset
    have lineEnd : Text.Quiet Import.statement (some ';') ['\n'] (imports.flatMap text ++ rest) :=
      .cons (by simp [Import.statement, Text.startsLine]) .nil
    have last : ("use ".toList ++ written.body ++ [';']).getLast?.or (some '\n') = some ';' := by
      rw [List.getLast?_concat]
      rfl
    have behind : offset + Text.byteSize ((written :: imports).flatMap text) =
        offset + Text.byteSize ("use ".toList ++ written.body ++ [';']) + Text.byteSize ['\n'] +
          Text.byteSize (imports.flatMap text) := by
      rw [Nat.add_assoc, Nat.add_assoc, ← Text.byteSize_append, ← Text.byteSize_append]
      simp [text]
    rw [behind, line, found, List.map_cons, last, Text.scanFrom_quiet lineEnd, List.map_cons, List.cons_append,
      show (['\n'].getLast?.or (some ';')) = some '\n' from rfl, ih others]

end WrittenImport

end FusionAtlas
