import FusionAtlas.Proofs.WrittenMethods

/-!
Class files that were written from what they declare. Reading such a file finds the namespace, the class, the
imports and the methods that were written, in order and nothing else, although each of them is searched in
the whole text. Main statements: `WrittenClass.namespace?_text`, `WrittenClass.classRange?_text`,
`WrittenClass.ofSource_text`, `WrittenClass.methods_text` and, of these, `WrittenClass.declaration_text`.
-/

set_option autoImplicit false
set_option relaxedAutoImplicit false

namespace FusionAtlas

open Text (Quiet isBlank isWord words)

/-- A class file as it is written. -/
structure WrittenClass where
  namespaceParts : List (List Char)
  name : List Char
  imports : List WrittenImport
  methods : List WrittenMethod
  deriving DecidableEq, Repr

namespace WrittenClass

/-- The namespace as a name. -/
def namespaceName (written : WrittenClass) : String := String.ofList (pathText written.namespaceParts)

/-- The lines in front of the class. -/
def header (written : WrittenClass) : List Char :=
  "<?php\n".toList ++ "namespace ".toList ++ pathText written.namespaceParts ++ ";\n".toList ++
    written.imports.flatMap WrittenImport.text

/-- The text up to the brace that opens the class. -/
def opening (written : WrittenClass) : List Char :=
  written.header ++ "class ".toList ++ written.name ++ "\n\x7b".toList

/-- The whole file. -/
def text (written : WrittenClass) : List Char :=
  written.opening ++ ['\n'] ++ written.methods.flatMap WrittenMethod.text ++ "\x7d\n".toList

/-- What a reader is to find. -/
def declared (written : WrittenClass) (fqcn rootName : String) (uri : FileUri) : ClassDeclaration :=
  let index := LineIndex.ofChars written.text
  let start := Text.byteSize written.header
  let range : ByteRange := ⟨start, start + Text.byteSize ("class ".toList ++ written.name)⟩
  { fqcn
    namespaceName := rootName
    methods := WrittenMethod.declaredAll written.namespaceName
      (written.imports.map WrittenImport.declared) index (Text.byteSize (written.opening ++ ['\n']))
      written.methods
    uri
    range
    span := index.span range }

/-- The names are names, the parts are well formed, and no more of them than are read. -/
structure WellFormed (written : WrittenClass) : Prop where
  path : IsPath written.namespaceParts
  name : IsName written.name
  imports : ∀ statement ∈ written.imports, statement.WellFormed
  methods : ∀ method ∈ written.methods, method.WellFormed
  importCount : written.imports.length ≤ Import.maxCount
  methodCount : written.methods.length ≤ ClassSource.maxMethods

variable {written : WrittenClass}

theorem namespacePattern_inside (c : Char) (text : List Char) (inside : c ≠ '\n') :
    ClassSource.namespacePattern (some c) text = none := by
  simp [ClassSource.namespacePattern, Text.startsLine, inside]

/-- A namespace is found in its line. -/
theorem namespacePattern_path {parts : List (List Char)} (path : IsPath parts) (rest : List Char) :
    ClassSource.namespacePattern (some '\n') ("namespace ".toList ++ pathText parts ++ [';'] ++ rest) =
      some ⟨pathText parts, ("namespace ".toList ++ pathText parts ++ [';']).length⟩ := by
  obtain ⟨c, more, spelled, word⟩ := path.exists_cons
  have opens : Text.trimStart ("namespace ".toList ++ pathText parts ++ [';'] ++ rest) =
      "namespace".toList ++ ' ' :: (pathText parts ++ ';' :: rest) := by
    rw [Text.trimStart_of_solid (by rintro d ⟨⟩; decide)]
    simp
  have blanks : Text.afterBlanks? (' ' :: (pathText parts ++ ';' :: rest)) =
      some (pathText parts ++ ';' :: rest) := by
    rw [Text.afterBlanks?, if_pos (by decide), Text.trimStart_of_solid]
    rw [spelled]
    rintro d ⟨⟩
    exact Text.isBlank_of_isWord word
  have chars : ∀ c ∈ pathText parts, ClassSource.isNamespaceChar c = true := by
    intro c member
    have solid := path.not_blank c member
    have other : c ≠ ';' ∧ c ≠ '\x7b' := by
      rcases path.mem_pathText member with word | rfl
      · constructor <;> rintro rfl <;> exact absurd word (by decide)
      · decide
    simp [ClassSource.isNamespaceChar, other, solid]
  have taken : Text.takeRun? ClassSource.isNamespaceChar (pathText parts ++ ';' :: rest) =
      some (pathText parts, ';' :: rest) :=
    Text.takeRun?_append (by simp [spelled]) chars (by rintro d ⟨⟩; decide)
  have closing : Text.trimStart (';' :: rest) = ';' :: rest :=
    Text.trimStart_of_solid (by rintro d ⟨⟩; decide)
  simp only [ClassSource.namespacePattern, Text.startsLine, opens, Text.afterOpening?_append, blanks, taken,
    closing, Option.bind_eq_bind, Option.bind_some]
  simp
  omega

/-- The namespace is found in the second line. -/
theorem namespace?_text (shape : written.WellFormed) :
    ClassSource.namespace? ⟨written.text⟩ = some (pathText written.namespaceParts) := by
  obtain ⟨rest, whole⟩ : ∃ rest, written.text = "<?php".toList ++ ['\n'] ++
      ("namespace ".toList ++ pathText written.namespaceParts ++ [';'] ++ rest) := by
    unfold text opening header
    exact ⟨_, by simp; rfl⟩
  have first : Quiet ClassSource.namespacePattern none ("<?php".toList ++ ['\n'])
      ("namespace ".toList ++ pathText written.namespaceParts ++ [';'] ++ rest) :=
    .line namespacePattern_inside rfl (by decide)
  have found := Text.scanFrom_hit (by simp) (namespacePattern_path shape.path rest)
    (Text.byteSize ("<?php".toList ++ ['\n']))
  rw [ClassSource.namespace?, Text.scan, whole, Text.scanFrom_quiet first, Nat.zero_add]
  change ((Text.scanFrom ClassSource.namespacePattern (some '\n') _ 0 _).head?).map _ = _
  rw [found]
  rfl

/-- The words that every class file has in front of its class. -/
def commonWords : List (List Char) := [[], "php".toList, "namespace".toList, "use".toList, "as".toList]

theorem words_body {statement : WrittenImport} (shape : statement.WellFormed) {word : List Char}
    (member : word ∈ words statement.body) : word ∈ commonWords ∨ IsName word := by
  cases given : statement.knownAs with
  | none =>
    have alone : statement.body = pathText statement.path := by simp [WrittenImport.body, given]
    rw [alone, shape.path.words_pathText] at member
    exact Or.inr (shape.path.name_of_mem word member)
  | some name =>
    have named := shape.knownAs name given
    have parted : statement.body = pathText statement.path ++ ' ' :: ("as".toList ++ ' ' :: name) := by
      simp [WrittenImport.body, given]
    rw [parted, Text.words_append_cons (by decide), Text.words_append_cons (by decide),
      shape.path.words_pathText, Text.words_of_word named.word] at member
    rcases List.mem_append.mp member with inPath | rest
    · exact Or.inr (shape.path.name_of_mem word inPath)
    · rcases List.mem_append.mp rest with inAs | inName
      · rw [Text.words_of_word (by decide), List.mem_singleton] at inAs
        exact Or.inl (by simp [inAs, commonWords])
      · rw [List.mem_singleton.mp inName]
        exact Or.inr named

theorem words_imports {imports : List WrittenImport} (shape : ∀ statement ∈ imports, statement.WellFormed)
    (rest : List Char) {word : List Char}
    (member : word ∈ words (imports.flatMap WrittenImport.text ++ rest)) :
    word ∈ commonWords ∨ IsName word ∨ word ∈ words rest := by
  induction imports with
  | nil => exact Or.inr (Or.inr member)
  | cons statement imports ih =>
    obtain ⟨first, others⟩ := List.forall_mem_cons.mp shape
    have line : (statement :: imports).flatMap WrittenImport.text ++ rest = "use".toList ++ ' ' ::
        (statement.body ++ ';' :: ([] ++ '\n' :: (imports.flatMap WrittenImport.text ++ rest))) := by
      simp [WrittenImport.text]
    rw [line, Text.words_append_cons (by decide), Text.words_append_cons (by decide),
      Text.words_append_cons (by decide), Text.words_of_word (by decide)] at member
    simp only [List.mem_append, List.mem_singleton] at member
    rcases member with rfl | inBody | empty | behind
    · exact Or.inl (by simp [commonWords])
    · exact (words_body first inBody).imp_right Or.inl
    · exact Or.inl (by simp_all [words, commonWords])
    · exact ih others behind

/-- A word of the lines in front of a class is one that every such file has, or a name. -/
theorem words_header (shape : written.WellFormed) (rest : List Char) {word : List Char}
    (member : word ∈ words (written.header ++ rest)) :
    word ∈ commonWords ∨ IsName word ∨ word ∈ words rest := by
  have lines : written.header ++ rest = "<?php\nnamespace".toList ++ ' ' ::
      (pathText written.namespaceParts ++ ';' ::
        ([] ++ '\n' :: (written.imports.flatMap WrittenImport.text ++ rest))) := by
    unfold header
    simp
  have first : ∀ word ∈ words "<?php\nnamespace".toList, word ∈ commonWords := by decide
  rw [lines, Text.words_append_cons (by decide), Text.words_append_cons (by decide),
    Text.words_append_cons (by decide), shape.path.words_pathText] at member
  simp only [List.mem_append] at member
  rcases member with inFirst | inPath | empty | behind
  · exact Or.inl (first word inFirst)
  · exact Or.inr (Or.inl (shape.path.name_of_mem word inPath))
  · exact Or.inl (by simp_all [words, commonWords])
  · exact words_imports shape.imports rest behind

/-- No word that is searched stands in front of the class. -/
theorem searched_not_mem_header (shape : written.WellFormed) {word : String}
    (searched : word ∈ searchedWords) (rest : List Char) (absent : word.toList ∉ words rest) :
    word.toList ∉ words (written.header ++ rest) := by
  intro member
  rcases words_header shape rest member with common | name | behind
  · simp only [searchedWords, List.mem_cons, List.not_mem_nil, or_false] at searched
    rcases searched with rfl | rfl | rfl <;> revert common <;> decide
  · exact name.free (by rwa [String.ofList_toList])
  · exact absent behind

theorem exists_header (written : WrittenClass) : ∃ front, written.header = front ++ ['\n'] := by
  unfold header
  rcases List.eq_nil_or_concat' written.imports with none | ⟨imports, last, some⟩
  · exact ⟨"<?php\n".toList ++ "namespace ".toList ++ pathText written.namespaceParts ++ [';'], by
      simp [none]⟩
  · refine ⟨"<?php\n".toList ++ "namespace ".toList ++ pathText written.namespaceParts ++ ";\n".toList ++
      (imports.flatMap WrittenImport.text ++ ("use ".toList ++ last.body ++ [';'])), ?_⟩
    simp [some, WrittenImport.text]

theorem classPattern_name {name : List Char} (shape : IsName name) (rest : List Char) :
    ClassSource.classPattern (some '\n') ("class ".toList ++ name ++ '\n' :: rest) =
      some ⟨name, ("class ".toList ++ name).length⟩ := by
  obtain ⟨c, more, spelled⟩ := List.exists_cons_of_ne_nil shape.written
  have opens : "class ".toList ++ name ++ '\n' :: rest = "class".toList ++ ' ' :: (name ++ '\n' :: rest) := by
    simp
  have blanks : Text.afterBlanks? (' ' :: (name ++ '\n' :: rest)) = some (name ++ '\n' :: rest) := by
    rw [Text.afterBlanks?, if_pos (by decide), Text.trimStart_of_solid]
    rw [spelled]
    rintro d ⟨⟩
    exact Text.isBlank_of_isWord (shape.word c (by simp [spelled]))
  have taken : Text.takeRun? isWord (name ++ '\n' :: rest) = some (name, '\n' :: rest) :=
    Text.takeRun?_append shape.written shape.word (by rintro d ⟨⟩; decide)
  have alone : (some '\n').any isWord = false := by decide
  simp only [ClassSource.classPattern, alone, opens, Text.afterOpening?_append, blanks, taken,
    Option.bind_eq_bind, Option.bind_some]
  simp
  omega

/-- The class is found behind the imports. -/
theorem classRange?_text (shape : written.WellFormed) :
    ClassSource.classRange? ⟨written.text⟩ written.name = some
      ⟨Text.byteSize written.header,
        Text.byteSize written.header + Text.byteSize ("class ".toList ++ written.name)⟩ := by
  obtain ⟨rest, whole⟩ : ∃ rest, written.text =
      written.header ++ ("class ".toList ++ written.name ++ '\n' :: rest) := by
    unfold text opening
    exact ⟨_, by simp; rfl⟩
  obtain ⟨front, lines⟩ := written.exists_header
  have absent : "class".toList ∉ words (front ++ ['\n']) := by
    have searched : "class".toList ∉ words (written.header ++ []) :=
      searched_not_mem_header shape (by decide) [] (by decide)
    rwa [List.append_nil, lines] at searched
  have quiet : Quiet ClassSource.classPattern none written.header
      ("class ".toList ++ written.name ++ '\n' :: rest) := by
    rw [lines]
    exact ClassSource.quiet_classPattern (by decide) absent
  have last : written.header.getLast?.or none = some '\n' := by
    rw [lines, List.getLast?_concat]
    rfl
  have found := Text.scanFrom_hit (by simp) (classPattern_name shape.name rest)
    (Text.byteSize written.header)
  rw [ClassSource.classRange?, Text.scan, whole, Text.scanFrom_quiet quiet, Nat.zero_add, last, found,
    List.find?_cons_of_pos (by simp), Option.map_some]

/-- The methods are found one by one, and nothing else is taken for one. -/
theorem methods_text (shape : written.WellFormed) (index : LineIndex) (imports : List Import) :
    ClassSource.methods ⟨written.text⟩ index written.namespaceName imports =
      WrittenMethod.declaredAll written.namespaceName imports index
        (Text.byteSize (written.opening ++ ['\n'])) written.methods := by
  let front := written.header ++ "class ".toList ++ written.name ++ ['\n']
  let members := written.methods.flatMap WrittenMethod.text ++ "\x7d\n".toList
  have opening : written.opening = front ++ ['\x7b'] := by
    unfold WrittenClass.opening
    simp [front]
  have whole : written.text = written.opening ++ ['\n'] ++ members := by
    unfold text
    simp only [List.append_assoc, members]
  have absent : "function".toList ∉ words written.opening := by
    have parted : written.opening = written.header ++
        ("class".toList ++ ' ' :: (written.name ++ '\n' :: ['\x7b'])) := by
      unfold WrittenClass.opening
      simp
    rw [parted]
    refine searched_not_mem_header shape (by decide) _ ?_
    rw [Text.words_append_cons (by decide), Text.words_append_cons (by decide),
      Text.words_of_word shape.name.word, Text.words_of_word (by decide)]
    simp only [List.mem_append, List.mem_singleton, not_or]
    refine ⟨by decide, fun same => ?_, by decide⟩
    exact shape.name.free (by rw [← same]; decide)
  have quiet : Quiet ClassSource.signaturePattern none written.opening (['\n'] ++ members) := by
    rw [opening] at absent ⊢
    exact ClassSource.quiet_signaturePattern (by decide) absent
  have lineEnd : Quiet ClassSource.signaturePattern (some '\x7b') ['\n'] members :=
    ClassSource.quiet_signaturePattern_of_marks (by decide)
  have last : written.opening.getLast?.or none = some '\x7b' := by
    rw [opening, List.getLast?_concat]
    rfl
  have place : (ClassSource.mk written.text).text = front ++ ['\x7b'] ++ ['\n'] ++ members := by
    rw [whole, opening]
  have read := WrittenMethod.map_methodOf_texts shape.methods index written.namespaceName imports
    (by decide) place (by decide) (some '\n')
  have count : (WrittenMethod.declaredAll written.namespaceName imports index
      (Text.byteSize (written.opening ++ ['\n'])) written.methods).length ≤ ClassSource.maxMethods := by
    rw [WrittenMethod.length_declaredAll]
    exact shape.methodCount
  have scanned : Text.scan ClassSource.signaturePattern written.text =
      Text.scanFrom ClassSource.signaturePattern (some '\n')
        (Text.byteSize (written.opening ++ ['\n'])) 0 members := by
    rw [Text.scan, whole, List.append_assoc, Text.scanFrom_quiet quiet, last,
      Text.scanFrom_quiet lineEnd, Nat.zero_add, Text.byteSize_append]
    rfl
  rw [← opening] at read
  rw [ClassSource.methods, scanned, List.map_take, read, List.take_of_length_le count]

theorem not_mem_of_isName {name : List Char} (shape : IsName name) : '\n' ∉ name := by
  intro member
  exact absurd (shape.word '\n' member) (by decide)

/-- A signature stands on one line. -/
theorem not_mem_signature {method : WrittenMethod} (shape : method.WellFormed) :
    '\n' ∉ method.head ++ (method.returns.map (": ".toList ++ ·.text)).getD [] := by
  intro member
  rcases List.mem_append.mp member with inHead | inReturn
  · unfold WrittenMethod.head at inHead
    simp only [List.mem_append] at inHead
    rcases inHead with (((((inPublic | inStatic) | inFunction) | inName) | inList) | inList) | inList
    · exact absurd inPublic (by decide)
    · revert inStatic
      cases method.isStatic <;> decide
    · exact absurd inFunction (by decide)
    · exact not_mem_of_isName shape.name inName
    · exact absurd inList (by decide)
    · exact (WrittenMethod.flat_parameters shape '\n' inList).2 rfl
    · exact absurd inList (by decide)
  · cases given : method.returns with
    | none => simp [given] at inReturn
    | some returned =>
      rw [given, Option.map_some, Option.getD_some, WrittenReturn.text] at inReturn
      simp only [List.mem_append] at inReturn
      rcases inReturn with inColon | inMark | inMembers
      · exact absurd inColon (by decide)
      · revert inMark
        cases returned.nullable <;> decide
      · exact absurd (shape.returns returned given '\n' inMembers) (by decide)

/-- A method is no import. -/
theorem quiet_statement_method {method : WrittenMethod} (shape : method.WellFormed) (before : Option Char)
    (rest : List Char) : Quiet Import.statement before method.text rest := by
  obtain ⟨line, starts⟩ : ∃ line,
      method.head ++ (method.returns.map (": ".toList ++ ·.text)).getD [] = 'p' :: line := by
    unfold WrittenMethod.head
    exact ⟨_, by simp; rfl⟩
  have single := not_mem_signature shape
  rw [starts] at single
  have lines : method.text = "    ".toList ++ 'p' :: line ++ ['\n'] ++
      ("    ".toList ++ '\x7b' :: [] ++ ['\n'] ++ ("    ".toList ++ '\x7d' :: [] ++ ['\n'])) := by
    unfold WrittenMethod.text
    rw [← starts]
    simp
  rw [lines]
  refine .append ?_ (.append ?_ ?_)
  · exact WrittenImport.quiet_statement (by decide) (by decide) (by decide) (by simpa using single) _
  · exact WrittenImport.quiet_statement (by decide) (by decide) (by decide) (by decide) _
  · exact WrittenImport.quiet_statement (by decide) (by decide) (by decide) (by decide) _

theorem quiet_statement_methods {methods : List WrittenMethod}
    (shape : ∀ method ∈ methods, method.WellFormed) (before : Option Char) (rest : List Char) :
    Quiet Import.statement before (methods.flatMap WrittenMethod.text) rest := by
  induction methods generalizing before with
  | nil => exact .nil
  | cons method methods ih =>
    obtain ⟨first, others⟩ := List.forall_mem_cons.mp shape
    rw [List.flatMap_cons]
    exact .append (quiet_statement_method first before _) (ih others _)

/-- The imports are found one by one, and nothing else is taken for one. -/
theorem ofSource_text (shape : written.WellFormed) :
    Import.ofSource written.text = written.imports.map WrittenImport.declared := by
  let front := [] ++ '<' :: "?php".toList ++ ['\n'] ++
    ([] ++ 'n' :: ("amespace ".toList ++ pathText written.namespaceParts ++ [';']) ++ ['\n'])
  let members := [] ++ 'c' :: ("lass ".toList ++ written.name) ++ ['\n'] ++
    ([] ++ '\x7b' :: [] ++ ['\n'] ++ (written.methods.flatMap WrittenMethod.text ++
      ([] ++ '\x7d' :: [] ++ ['\n'])))
  have whole : written.text = front ++ (written.imports.flatMap WrittenImport.text ++ (members ++ [])) := by
    unfold text opening header
    simp [front, members]
  have namespaceLine : '\n' ∉ [] ++ 'n' :: ("amespace ".toList ++ pathText written.namespaceParts ++ [';']) := by
    have path : '\n' ∉ pathText written.namespaceParts := by
      intro member
      exact absurd (shape.path.not_blank '\n' member) (by decide)
    simp [path]
  have classLine : '\n' ∉ [] ++ 'c' :: ("lass ".toList ++ written.name) := by
    simp [not_mem_of_isName shape.name]
  have frontQuiet (rest : List Char) : Quiet Import.statement none front rest :=
    .append (WrittenImport.quiet_statement (by decide) (by decide) (by decide) (by decide) _)
      (WrittenImport.quiet_statement (by decide) (by decide) (by decide) namespaceLine _)
  have membersQuiet : Quiet Import.statement (some '\n') members [] := by
    refine .append ?_ (.append ?_ (.append (quiet_statement_methods shape.methods _ _) ?_))
    · exact WrittenImport.quiet_statement (by decide) (by decide) (by decide) classLine _
    · exact WrittenImport.quiet_statement (by decide) (by decide) (by decide) (by decide) _
    · exact WrittenImport.quiet_statement (by decide) (by decide) (by decide) (by decide) _
  have last : front.getLast?.or none = some '\n' := by
    simp only [front, ← List.append_assoc, List.getLast?_concat]
    rfl
  have values : (Text.scan Import.statement written.text).map (·.value) =
      written.imports.map WrittenImport.body := by
    rw [Text.scan, whole, Text.scanFrom_quiet (frontQuiet _), last,
      WrittenImport.scanFrom_texts shape.imports, Text.scanFrom_quiet membersQuiet]
    exact List.append_nil _
  have count : (written.imports.map WrittenImport.body).length ≤ Import.maxCount := by
    rw [List.length_map]
    exact shape.importCount
  have read : Import.ofSource written.text =
      (((Text.scan Import.statement written.text).map (·.value)).take Import.maxCount).filterMap
        Import.ofBody? := by
    rw [Import.ofSource, ← List.map_take, List.filterMap_map]
    rfl
  rw [read, values, List.take_of_length_le count, List.filterMap_map]
  have bodies : ∀ statement ∈ written.imports,
      (Import.ofBody? ∘ WrittenImport.body) statement = (some ∘ WrittenImport.declared) statement :=
    fun statement listed => WrittenImport.ofBody?_body (shape.imports statement listed)
  rw [List.filterMap_congr bodies, List.filterMap_eq_map]

/-- A class file that was written from what it declares is read as just that. -/
theorem declaration_text (shape : written.WellFormed) {fqcn : String}
    (named : ClassName.shortName fqcn.toList = written.name) (rootName : String) (uri : FileUri) :
    (ClassSource.mk written.text).declaration fqcn written.namespaceName rootName uri =
      .ok (written.declared fqcn rootName uri) := by
  have declared : (ClassSource.namespace? ⟨written.text⟩).map String.ofList = some written.namespaceName := by
    rw [namespace?_text shape]
    rfl
  simp only [ClassSource.declaration, declared, ne_eq, not_true_eq_false, if_false, named,
    classRange?_text shape, ofSource_text shape, methods_text shape]
  rfl

private def gear : WrittenClass where
  namespaceParts := ["Acme".toList, "Pumps".toList]
  name := "Gear".toList
  imports := [⟨["Acme".toList, "Base".toList, "Wheel".toList], some "Rim".toList⟩]
  methods := [
    ⟨"make".toList, true,
      [⟨some "?int|string".toList, false, false, "size".toList, some "[1, 'a]']".toList⟩,
        ⟨none, true, true, "more".toList, none⟩],
      some ⟨true, "Rim".toList⟩⟩,
    ⟨"getTurns".toList, false, [], none⟩]

private theorem gear_wellFormed : gear.WellFormed := by
  have size : WrittenParameter.WellFormed
      ⟨some "?int|string".toList, false, false, "size".toList, some "[1, 'a]']".toList⟩ := by
    refine ⟨?_, by decide, ?_⟩
    · rintro type ⟨⟩
      exact ⟨.one (by decide) (by decide), by decide⟩
    · rintro default ⟨⟩
      have inner : ParameterList.Balanced true "1, 'a]'".toList :=
        .plain (by decide) (by decide) (.plain (by decide) (by decide) (.plain (by decide) (by decide)
          (.quoted (by decide) (.plain (by decide) (by decide) (.plain (by decide) (by decide) .close))
            .nil)))
      exact ⟨by decide, by decide, .bracketed (by decide) (by decide) inner .nil⟩
  have more : WrittenParameter.WellFormed ⟨none, true, true, "more".toList, none⟩ :=
    ⟨by simp, by decide, by simp⟩
  refine ⟨.join (by decide) (.one (by decide)), by decide, ?_, ?_, by decide, by decide⟩
  · intro statement listed
    rw [List.mem_singleton.mp listed]
    exact ⟨.join (by decide) (.join (by decide) (.one (by decide))), by rintro name ⟨⟩; decide⟩
  · intro method listed
    rcases List.mem_pair.mp listed with rfl | rfl
    · refine ⟨by decide, ?_, by rintro returned ⟨⟩; decide⟩
      intro parameter listed
      rcases List.mem_pair.mp listed with rfl | rfl
      · exact ⟨size, by rintro default ⟨⟩; decide⟩
      · exact ⟨more, by rintro default ⟨⟩⟩
    · exact ⟨by decide, by simp, by rintro returned ⟨⟩⟩

/-- A class with an import, a static method that returns it and takes any number of parameters, and a
getter. -/
theorem declaration_gear :
    gear.WellFormed ∧ ClassName.shortName "Acme\\Pumps\\Gear".toList = gear.name ∧
      (ClassSource.mk gear.text).declaration "Acme\\Pumps\\Gear" "Acme\\Pumps" "Acme"
          (.ofPath (.ofString "/src/Gear.php")) =
        .ok (gear.declared "Acme\\Pumps\\Gear" "Acme" (.ofPath (.ofString "/src/Gear.php"))) ∧
      (gear.declared "Acme\\Pumps\\Gear" "Acme" (.ofPath (.ofString "/src/Gear.php"))).methods.map
          (fun method => (method.propertyName, method.isStatic, method.parameters.map (·.default),
            method.returnType)) =
        [("make", true, [some "[1, 'a]']", none], .classRef "Acme\\Base\\Wheel"),
          ("turns", false, [], .unresolved)] := by
  have named : ClassName.shortName "Acme\\Pumps\\Gear".toList = gear.name := by decide
  exact ⟨gear_wellFormed, named, declaration_text gear_wellFormed named "Acme" _, by decide +kernel⟩

/-- The default value of its only parameter holds a comma outside of brackets and quotes. -/
private def pump : WrittenClass where
  namespaceParts := ["Acme".toList]
  name := "Pump".toList
  imports := []
  methods := [⟨"run".toList, false, [⟨none, false, false, "a".toList, some "1, $b = 2".toList⟩], none⟩]

/-- A default value is cut at a comma outside of brackets and quotes, although it stands on one line, is
trimmed and has all its brackets and quotes closed: written with it, one parameter has the text of two. -/
theorem declaration_comma :
    IsPath pump.namespaceParts ∧ IsName pump.name ∧ IsName "run".toList ∧ IsName "a".toList ∧
      (∀ parameter ∈ pump.methods.flatMap (·.parameters), WrittenMethod.IsFlatDefault parameter ∧
        ∀ default, parameter.default = some default →
          default ≠ [] ∧ Text.trim default = default ∧ ParameterList.Balanced true default) ∧
      (ClassSource.mk pump.text).declaration "Acme\\Pump" "Acme" "Acme" (.ofPath (.ofString "/src/Pump.php")) ≠
        .ok (pump.declared "Acme\\Pump" "Acme" (.ofPath (.ofString "/src/Pump.php"))) := by
  refine ⟨.one (by decide), by decide, by decide, by decide, ?_, fun same => ?_⟩
  · intro parameter listed
    obtain rfl := List.mem_singleton.mp listed
    refine ⟨by rintro default ⟨⟩; decide, ?_⟩
    rintro default ⟨⟩
    refine ⟨by decide, by decide, ?_⟩
    exact .plain (by decide) (by decide) (.plain (by decide) (fun _ => rfl) (.of_plain (by decide)))
  · have counts := congrArg (fun found =>
      found.toOption.map fun declaration => declaration.methods.map (·.parameters.length)) same
    revert counts
    decide +kernel

end WrittenClass

end FusionAtlas
