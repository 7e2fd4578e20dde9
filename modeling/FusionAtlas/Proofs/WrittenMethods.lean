import FusionAtlas.Proofs.DocComments
import FusionAtlas.Proofs.WrittenImports

/-!
Methods that were written one by one. A signature is found at its start and covers the text up to its return
type, or up to the body if it has none, and nothing else of a method is taken for a signature. Main
statements: `WrittenMethod.signaturePattern_text` and `WrittenMethod.map_methodOf_texts`.
-/

set_option autoImplicit false
set_option relaxedAutoImplicit false

namespace FusionAtlas

open Text (isBlank isWord words)

/-- A return type as it is written: a question mark and the rest. -/
structure WrittenReturn where
  nullable : Bool
  members : List Char
  deriving DecidableEq, Repr

namespace WrittenReturn

/-- The type with its question mark. -/
def text (written : WrittenReturn) : List Char :=
  (if written.nullable then ['?'] else []) ++ written.members

end WrittenReturn

/-- A public method as it is written. -/
structure WrittenMethod where
  name : List Char
  isStatic : Bool
  parameters : List WrittenParameter
  returns : Option WrittenReturn
  deriving DecidableEq, Repr

namespace WrittenMethod

/-- The word that makes a method static. -/
def staticText : Bool → List Char
  | true => "static ".toList
  | false => []

/-- The signature up to the closing parenthesis. -/
def head (method : WrittenMethod) : List Char :=
  "public ".toList ++ staticText method.isStatic ++ "function ".toList ++
    method.name ++ ['('] ++ WrittenParameter.listText method.parameters ++ [')']

/-- The return type, if there is more to it than a question mark. -/
def returnType? (method : WrittenMethod) : Option (List Char) :=
  (method.returns.filter fun written => !written.members.isEmpty).map WrittenReturn.text

/-- What a signature covers. The blanks in front of the body belong to it if it has no return type. -/
def covered (method : WrittenMethod) : List Char :=
  match method.returns with
  | none => method.head ++ "\n    ".toList
  | some written =>
    if written.members.isEmpty then method.head else method.head ++ ": ".toList ++ written.text

/-- What is left of a method behind that. -/
def uncovered (method : WrittenMethod) : List Char :=
  match method.returns with
  | none => "\x7b\n    \x7d\n".toList
  | some written =>
    (if written.members.isEmpty then ": ".toList ++ written.text else []) ++
      "\n    \x7b\n    \x7d\n".toList

/-- A method with an empty body, on lines of their own. -/
def text (method : WrittenMethod) : List Char :=
  "    ".toList ++ method.head ++ (method.returns.map (": ".toList ++ ·.text)).getD [] ++
    "\n    \x7b\n    \x7d\n".toList

/-- What a reader is to find, at its place in a file. -/
def declared (method : WrittenMethod) (namespaceName : String) (imports : List Import)
    (index : LineIndex) (offset : Nat) : MethodDeclaration :=
  let range : ByteRange := ⟨offset, offset + Text.byteSize method.covered⟩
  { name := String.ofList method.name
    propertyName := String.ofList (propertyNameOf method.name)
    isStatic := method.isStatic
    parameters := method.parameters.map WrittenParameter.declared
    returnType := (method.returns.map fun written =>
      ReturnType.parse written.text namespaceName imports).getD .unresolved
    description := ""
    returnDescription := none
    range
    span := index.span range }

/-- A default value that stands on one line and holds no parentheses. -/
def IsFlatDefault (parameter : WrittenParameter) : Prop :=
  ∀ default, parameter.default = some default → '(' ∉ default ∧ ')' ∉ default ∧ '\n' ∉ default

/-- The name is a name, the parameters have flat defaults, and the type is written as types are. -/
structure WellFormed (method : WrittenMethod) : Prop where
  name : IsName method.name
  parameters : ∀ parameter ∈ method.parameters, parameter.WellFormed ∧ IsFlatDefault parameter
  returns : ∀ written, method.returns = some written →
    ∀ c ∈ written.members, ClassSource.isReturnTypeChar c = true

variable {method : WrittenMethod}

theorem text_eq (method : WrittenMethod) : method.text = "    ".toList ++ method.covered ++ method.uncovered := by
  unfold text covered uncovered
  cases method.returns with
  | none => simp
  | some written => cases empty : written.members.isEmpty <;> simp [empty]

theorem exists_of_mem_listText {parameters : List WrittenParameter} {c : Char}
    (member : c ∈ WrittenParameter.listText parameters) :
    c = ',' ∨ c = ' ' ∨ ∃ parameter ∈ parameters, c ∈ parameter.text := by
  induction parameters with
  | nil => simp [WrittenParameter.listText] at member
  | cons first others ih =>
    cases others with
    | nil => exact Or.inr (Or.inr ⟨first, by simpa [WrittenParameter.listText] using member⟩)
    | cons second others =>
      rw [WrittenParameter.listText_cons_cons] at member
      simp only [List.mem_append, List.mem_cons (a := c)] at member
      rcases member with inFirst | rfl | rfl | behind
      · exact Or.inr (Or.inr ⟨first, by simp, inFirst⟩)
      · exact Or.inl rfl
      · exact Or.inr (Or.inl rfl)
      · rcases ih behind with comma | blank | ⟨parameter, listed, inside⟩
        · exact Or.inl comma
        · exact Or.inr (Or.inl blank)
        · exact Or.inr (Or.inr ⟨parameter, List.mem_cons_of_mem _ listed, inside⟩)

/-- The characters of a list of parameters, its default values apart. -/
theorem mem_listText {parameters : List WrittenParameter}
    (shape : ∀ parameter ∈ parameters, parameter.WellFormed) {c : Char}
    (member : c ∈ WrittenParameter.listText parameters) :
    c ∈ [',', ' ', '&', '.', '$', '='] ∨ ParameterList.isTypeChar c = true ∨
      ∃ parameter ∈ parameters, ∃ default, parameter.default = some default ∧ c ∈ default := by
  have inText {parameter : WrittenParameter} (listed : parameter ∈ parameters) (inside : c ∈ parameter.text) :
      c ∈ [',', ' ', '&', '.', '$', '='] ∨ ParameterList.isTypeChar c = true ∨
        ∃ parameter ∈ parameters, ∃ default, parameter.default = some default ∧ c ∈ default := by
    simp only [WrittenParameter.text, WrittenParameter.marks, List.mem_append, List.mem_cons] at inside
    rcases inside with inType | (mark | mark) | rfl | inName | inDefault
    · cases given : parameter.type with
      | none => simp [given] at inType
      | some type =>
        rw [given, Option.map_some, Option.getD_some] at inType
        rcases List.mem_append.mp inType with inType | blank
        · rcases ((shape parameter listed).type type given).1.written.2 c inType with rfl | type
          · simp
          · exact Or.inr (Or.inl type)
        · exact Or.inl (by simp_all)
    · exact Or.inl (by split at mark <;> simp_all)
    · exact Or.inl (by split at mark <;> simp_all)
    · simp
    · refine Or.inr (Or.inl ?_)
      simp [ParameterList.isTypeChar, (shape parameter listed).name.2 c inName]
    · cases given : parameter.default with
      | none => simp [given] at inDefault
      | some default =>
        rw [given, Option.map_some, Option.getD_some] at inDefault
        rcases List.mem_append.mp inDefault with equals | inside
        · exact Or.inl (by
            simp only [String.reduceToList, List.mem_cons, List.not_mem_nil, or_false] at equals
            rcases equals with rfl | rfl | rfl <;> decide)
        · exact Or.inr (Or.inr ⟨parameter, listed, default, given, inside⟩)
  rcases exists_of_mem_listText member with rfl | rfl | ⟨parameter, listed, inside⟩
  · simp
  · simp
  · exact inText listed inside

/-- Neither a parenthesis nor the end of a line stands in the list of parameters. -/
theorem flat_parameters (shape : method.WellFormed) :
    ∀ c ∈ WrittenParameter.listText method.parameters, ClassSource.isFlat c = true ∧ c ≠ '\n' := by
  intro c member
  rcases mem_listText (fun parameter listed => (shape.parameters parameter listed).1) member with
    mark | type | ⟨parameter, listed, default, given, inside⟩
  · simp only [List.mem_cons, List.not_mem_nil, or_false] at mark
    rcases mark with rfl | rfl | rfl | rfl | rfl | rfl <;> decide
  · have other : c ≠ '(' ∧ c ≠ ')' ∧ c ≠ '\n' := by
      refine ⟨?_, ?_, ?_⟩ <;> rintro rfl <;> exact absurd type (by decide)
    simp [ClassSource.isFlat, other]
  · obtain ⟨opening, closing, lineEnd⟩ := (shape.parameters parameter listed).2 default given
    have other : c ≠ '(' ∧ c ≠ ')' ∧ c ≠ '\n' := by
      refine ⟨?_, ?_, ?_⟩ <;> rintro rfl <;> contradiction
    simp [ClassSource.isFlat, other]

theorem takeEnclosed?_append {inside : List Char} (flat : ∀ c ∈ inside, ClassSource.isFlat c = true)
    (rest : List Char) : ClassSource.takeEnclosed? false (inside ++ ')' :: rest) = some (inside, rest) := by
  induction inside with
  | nil => rfl
  | cons c inside ih =>
    obtain ⟨first, others⟩ := List.forall_mem_cons.mp flat
    rw [List.cons_append, ClassSource.takeEnclosed?, if_pos first, ih others]
    rfl

theorem afterWord?_append {word : String} {rest : List Char}
    (solid : ∀ c ∈ rest.head?, isBlank c = false) :
    ClassSource.afterWord? word (word.toList ++ ' ' :: rest) = some rest := by
  rw [ClassSource.afterWord?, Text.afterOpening?_append, Option.bind_some, Text.afterBlanks?,
    if_pos (by decide), Text.trimStart_of_solid solid]

/-- The words in front of a name, with the word `static` behind `public` if it is there. -/
theorem afterWords_head (method : WrittenMethod) {c : Char} (rest : List Char)
    (solid : isBlank c = false) :
    let text := "public ".toList ++ staticText method.isStatic ++
      "function ".toList ++ c :: rest
    ClassSource.afterWord? "static" text = none ∧
      ∃ behind, ClassSource.afterWord? "public" text = some behind ∧
        (ClassSource.afterWord? "static" behind).isSome = method.isStatic ∧
        ClassSource.afterWord? "function" ((ClassSource.afterWord? "static" behind).getD behind) =
          some (c :: rest) := by
  have isFunction : ClassSource.afterWord? "function" ("function".toList ++ ' ' :: c :: rest) =
      some (c :: rest) := afterWord?_append (by rintro d ⟨⟩; exact solid)
  have notStatic : ClassSource.afterWord? "static" ("function".toList ++ ' ' :: c :: rest) = none :=
    ClassSource.afterWord?_eq_none (c := 's') rfl (by decide)
  have solidWord {word : String} {rest : List Char} (listed : word ∈ ["function", "static"]) :
      ∀ d ∈ (word.toList ++ rest).head?, isBlank d = false := by
    intro d first
    rcases List.mem_pair.mp listed with rfl | rfl
    · obtain rfl : 'f' = d := by simpa using first
      decide
    · obtain rfl : 's' = d := by simpa using first
      decide
  refine ⟨ClassSource.afterWord?_eq_none (c := 's') rfl (by decide), ?_⟩
  cases method.isStatic with
  | false =>
    have isPublic : ClassSource.afterWord? "public"
        ("public".toList ++ ' ' :: ("function".toList ++ ' ' :: c :: rest)) =
        some ("function".toList ++ ' ' :: c :: rest) := afterWord?_append (solidWord (by simp))
    refine ⟨_, isPublic, by rw [notStatic]; rfl, ?_⟩
    rw [notStatic]
    exact isFunction
  | true =>
    have isPublic : ClassSource.afterWord? "public" ("public".toList ++ ' ' ::
        ("static".toList ++ ' ' :: ("function".toList ++ ' ' :: c :: rest))) =
        some ("static".toList ++ ' ' :: ("function".toList ++ ' ' :: c :: rest)) :=
      afterWord?_append (solidWord (by simp))
    have isStatic : ClassSource.afterWord? "static"
        ("static".toList ++ ' ' :: ("function".toList ++ ' ' :: c :: rest)) =
        some ("function".toList ++ ' ' :: c :: rest) := afterWord?_append (solidWord (by simp))
    refine ⟨_, isPublic, by rw [isStatic]; rfl, ?_⟩
    rw [isStatic]
    exact isFunction

theorem signaturePattern_head (shape : method.WellFormed) (before : Option Char) (rest : List Char) :
    ClassSource.signaturePattern before (method.head ++ rest) =
      let returns := ClassSource.takeReturnType? (Text.trimStart rest)
      some ⟨⟨method.name, method.isStatic, WrittenParameter.listText method.parameters, returns.map (·.1)⟩,
        (method.head ++ rest).length - ((returns.map (·.2)).getD (Text.trimStart rest)).length⟩ := by
  obtain ⟨c, others, name⟩ := List.exists_cons_of_ne_nil shape.name.written
  have first : isWord c = true := shape.name.word c (by simp [name])
  obtain ⟨parameters, list⟩ : ∃ parameters, parameters =
      '(' :: (WrittenParameter.listText method.parameters ++ ')' :: rest) := ⟨_, rfl⟩
  have whole : method.head ++ rest = "public ".toList ++ staticText method.isStatic ++
      "function ".toList ++ c :: (others ++ parameters) := by
    unfold head
    rw [name, list]
    simp only [List.append_assoc, List.cons_append, List.nil_append]
  have noReference : Text.afterOpening? ['&'] (c :: (others ++ parameters)) = none := by
    have other : '&' ≠ c := by
      rintro rfl
      exact absurd first (by decide)
    rw [Text.afterOpening?, if_neg other]
  have named : Text.takeRun? isWord (c :: (others ++ parameters)) = some (method.name, parameters) := by
    rw [← List.cons_append, ← name]
    refine Text.takeRun?_append shape.name.written shape.name.word ?_
    rw [list]
    rintro d ⟨⟩
    decide
  have opened : Text.afterOpening? ['('] (Text.trimStart parameters) =
      some (WrittenParameter.listText method.parameters ++ ')' :: rest) := by
    rw [list, Text.trimStart_of_solid (by rintro d ⟨⟩; decide)]
    rfl
  have enclosed := takeEnclosed?_append (fun c member => (flat_parameters shape c member).1) rest
  obtain ⟨noStatic, behind, isPublic, isStatic, isFunction⟩ :=
    afterWords_head method (others ++ parameters) (Text.isBlank_of_isWord first)
  rw [whole]
  simp only [ClassSource.signaturePattern, noStatic, isPublic, isStatic, isFunction, noReference, named,
    opened, enclosed, Option.getD_none, Option.bind_eq_bind, Option.bind_some, Option.isSome_none,
    Bool.false_or]

/-- What stands behind the parentheses of a method. -/
def behindHead (method : WrittenMethod) : List Char :=
  (method.returns.map (": ".toList ++ ·.text)).getD [] ++ "\n    \x7b\n    \x7d\n".toList

theorem takeReturnType?_question {text rest : List Char} (opens : Text.trimStart text = '?' :: rest) :
    ClassSource.takeReturnType? (':' :: text) =
      (Text.takeRun? ClassSource.isReturnTypeChar rest).map fun found => ('?' :: found.1, found.2) := by
  simp only [ClassSource.takeReturnType?, opens]

theorem takeReturnType?_plain {c : Char} {text rest : List Char} (opens : Text.trimStart text = c :: rest)
    (other : c ≠ '?') :
    ClassSource.takeReturnType? (':' :: text) = Text.takeRun? ClassSource.isReturnTypeChar (c :: rest) := by
  simp only [ClassSource.takeReturnType?, opens]
  split
  · simp_all
  · rfl

theorem trimStart_space (text : List Char) : Text.trimStart (' ' :: text) = Text.trimStart text := by
  rw [Text.trimStart, List.dropWhile_cons_of_pos (by decide)]
  rfl

theorem trimStart_question (text : List Char) : Text.trimStart (' ' :: '?' :: text) = '?' :: text := by
  rw [trimStart_space, Text.trimStart_of_solid (by rintro c ⟨⟩; decide)]

/-- A return type is read up to the first character that cannot go on with it. -/
theorem takeReturnType?_text {written : WrittenReturn} {lines : List Char} (nonempty : written.members ≠ [])
    (chars : ∀ c ∈ written.members, ClassSource.isReturnTypeChar c = true)
    (stop : ∀ c ∈ lines.head?, ClassSource.isReturnTypeChar c = false) :
    ClassSource.takeReturnType? (':' :: ' ' :: (written.text ++ lines)) = some (written.text, lines) := by
  have taken := Text.takeRun?_append nonempty chars stop
  rw [WrittenReturn.text]
  cases written.nullable with
  | true =>
    refine (takeReturnType?_question (trimStart_question (written.members ++ lines))).trans ?_
    rw [taken]
    rfl
  | false =>
    obtain ⟨c, members, split⟩ := List.exists_cons_of_ne_nil nonempty
    have first := chars c (by simp [split])
    have other : c ≠ '?' := by
      rintro rfl
      exact absurd first (by decide)
    have solid : isBlank c = false := by
      simp only [ClassSource.isReturnTypeChar, Bool.or_eq_true, beq_iff_eq] at first
      rcases first with (rfl | rfl) | word
      · decide
      · decide
      · exact Text.isBlank_of_isWord word
    have opens : Text.trimStart (' ' :: (written.members ++ lines)) = c :: (members ++ lines) := by
      rw [trimStart_space, split, Text.trimStart_of_solid (by rintro d ⟨⟩; exact solid)]
      rfl
    refine (takeReturnType?_plain opens other).trans ?_
    rw [← List.cons_append, ← split, taken]
    rfl

/-- A question mark alone is no return type, and nor is nothing at all. -/
theorem takeReturnType?_noMembers {written : WrittenReturn} {lines rest : List Char}
    (empty : written.members = []) (stop : ∀ c ∈ lines.head?, ClassSource.isReturnTypeChar c = false)
    (body : Text.trimStart lines = '\x7b' :: rest) :
    ClassSource.takeReturnType? (':' :: ' ' :: (written.text ++ lines)) = none := by
  rw [WrittenReturn.text, empty]
  cases written.nullable with
  | true =>
    refine (takeReturnType?_question (trimStart_question lines)).trans ?_
    rw [Text.takeRun?_eq_none stop]
    rfl
  | false =>
    refine (takeReturnType?_plain ((trimStart_space lines).trans body) (by decide)).trans ?_
    exact Text.takeRun?_eq_none (by rintro c ⟨⟩; decide)

/-- The return type is taken up to the body, and without one so are the blanks. -/
theorem takeReturnType?_behindHead (shape : method.WellFormed) (rest : List Char) :
    let behind := Text.trimStart (method.behindHead ++ rest)
    ClassSource.takeReturnType? behind =
        method.returnType?.map (fun type => (type, method.uncovered ++ rest)) ∧
      (method.returnType? = none → behind = method.uncovered ++ rest) := by
  intro behind
  let lines := "\n    \x7b\n    \x7d\n".toList ++ rest
  have body : Text.trimStart lines = "\x7b\n    \x7d\n".toList ++ rest := by
    simp [lines, Text.trimStart, isBlank]
  have stop : ∀ c ∈ lines.head?, ClassSource.isReturnTypeChar c = false := by
    rintro c ⟨⟩
    decide
  cases given : method.returns with
  | none =>
    have bare : behind = "\x7b\n    \x7d\n".toList ++ rest := by
      simp only [behind, behindHead, given]
      exact body
    have left : method.uncovered = "\x7b\n    \x7d\n".toList := by
      unfold uncovered
      rw [given]
    rw [bare, left, returnType?, given]
    exact ⟨rfl, fun _ => rfl⟩
  | some written =>
    have colon : behind = ':' :: ' ' :: (written.text ++ lines) := by
      simp only [behind, behindHead, given]
      simp [lines, Text.trimStart, isBlank]
    rw [colon]
    by_cases empty : written.members = []
    · have none : method.returnType? = none := by simp [returnType?, given, empty]
      have left : method.uncovered ++ rest = ':' :: ' ' :: (written.text ++ lines) := by
        unfold uncovered
        simp [given, empty, lines]
      rw [takeReturnType?_noMembers empty stop body, none, left]
      exact ⟨rfl, fun _ => rfl⟩
    · have type : method.returnType? = some written.text := by simp [returnType?, given, empty]
      have left : method.uncovered ++ rest = lines := by
        unfold uncovered
        simp [given, empty, lines]
      rw [takeReturnType?_text empty (shape.returns written given) stop, type, left]
      exact ⟨rfl, fun none => absurd none (Option.some_ne_none _)⟩

theorem covered_append (method : WrittenMethod) (rest : List Char) :
    method.covered ++ (method.uncovered ++ rest) = method.head ++ (method.behindHead ++ rest) := by
  unfold covered uncovered behindHead
  cases method.returns with
  | none => simp
  | some written => cases empty : written.members.isEmpty <;> simp [empty]

theorem covered_ne_nil (method : WrittenMethod) : method.covered ≠ [] := by
  have head : method.head ≠ [] := by
    unfold head
    simp
  unfold covered
  cases method.returns with
  | none => simp
  | some written => cases empty : written.members.isEmpty <;> simp [empty, head]

/-- A method ends with the brace of its body, and holds no first letter of a signature behind its own. -/
theorem exists_uncovered (method : WrittenMethod) :
    ∃ start, method.uncovered = start ++ ['\x7d'] ++ ['\n'] := by
  unfold uncovered
  cases method.returns with
  | none => exact ⟨"\x7b\n    ".toList, rfl⟩
  | some written =>
    exact ⟨(if written.members.isEmpty then ": ".toList ++ written.text else []) ++
      "\n    \x7b\n    ".toList, by simp⟩

theorem marks_uncovered (method : WrittenMethod) : ∀ c ∈ method.uncovered, c ∉ ['p', 's'] := by
  unfold uncovered
  cases method.returns with
  | none => decide
  | some written =>
    intro c member
    rcases List.mem_append.mp member with inReturn | inBody
    · cases empty : written.members with
      | nil =>
        have mark : c ∈ [':', ' ', '?'] := by
          rw [WrittenReturn.text, empty] at inReturn
          cases nullable : written.nullable
          · rcases (by simpa [nullable] using inReturn : c = ':' ∨ c = ' ') with rfl | rfl <;> simp
          · simpa [nullable] using inReturn
        simp only [List.mem_cons, List.not_mem_nil, or_false] at mark
        rcases mark with rfl | rfl | rfl <;> decide
      | cons d members => simp [empty] at inReturn
    · exact (by decide : ∀ c ∈ "\n    \x7b\n    \x7d\n".toList, c ∉ ['p', 's']) c inBody

/-- A signature is found at its start. -/
theorem signaturePattern_text (shape : method.WellFormed) (before : Option Char) (rest : List Char) :
    ClassSource.signaturePattern before (method.covered ++ (method.uncovered ++ rest)) =
      some ⟨⟨method.name, method.isStatic, WrittenParameter.listText method.parameters,
        method.returnType?⟩, method.covered.length⟩ := by
  have left : ((method.returnType?.map fun type => (type, method.uncovered ++ rest)).map (·.2)).getD
      (Text.trimStart (method.behindHead ++ rest)) = method.uncovered ++ rest := by
    cases type : method.returnType? with
    | none => exact (takeReturnType?_behindHead shape rest).2 type
    | some type => rfl
  have type : (method.returnType?.map fun type => (type, method.uncovered ++ rest)).map (·.1) =
      method.returnType? := by
    cases method.returnType? <;> rfl
  have found := signaturePattern_head shape before (method.behindHead ++ rest)
  rw [(takeReturnType?_behindHead shape rest).1] at found
  simp only [left, type, ← covered_append] at found
  rw [found, List.length_append, Nat.add_sub_cancel]

/-- What is read of a signature behind code, at its place in a file. -/
theorem methodOf_text (shape : method.WellFormed) {source : ClassSource} (index : LineIndex)
    (namespaceName : String) (imports : List Import) (front : List Char) {blanks behind : List Char}
    {c : Char} (brace : c ∈ ['\x7b', '\x7d']) (blank : ∀ d ∈ blanks, isBlank d = true)
    (place : source.text = front ++ [c] ++ blanks ++ behind) :
    let offset := Text.byteSize (front ++ [c] ++ blanks)
    source.methodOf index namespaceName imports
      ⟨⟨method.name, method.isStatic, WrittenParameter.listText method.parameters, method.returnType?⟩,
        offset, offset + Text.byteSize method.covered⟩ =
      method.declared namespaceName imports index offset := by
  intro offset
  have before : (Text.takeBytes source.text offset).bind DocBlock.before? = none := by
    rw [place, Text.takeBytes_append, Option.bind_some]
    exact DocBlock.before?_of_brace front brace blank
  have parameters : ParameterList.parse (WrittenParameter.listText method.parameters) =
      method.parameters.map WrittenParameter.declared :=
    WrittenParameter.parse_listText fun parameter listed => (shape.parameters parameter listed).1
  have returns : (method.returnType?.map fun raw => ReturnType.parse raw namespaceName imports).getD
      .unresolved = (method.returns.map fun written =>
        ReturnType.parse written.text namespaceName imports).getD .unresolved := by
    cases given : method.returns with
    | none => simp [returnType?, given]
    | some written =>
      cases empty : written.members with
      | nil =>
        have none : method.returnType? = none := by simp [returnType?, given, empty]
        have nothing : ReturnType.parse written.text namespaceName imports = .unresolved := by
          rw [WrittenReturn.text, empty]
          cases written.nullable <;> rfl
        rw [none]
        exact nothing.symm
      | cons c members =>
        have type : method.returnType? = some written.text := by simp [returnType?, given, empty]
        rw [type]
        rfl
  simp only [ClassSource.methodOf, before, Option.getD_none, parameters, declared, DocBlock.empty,
    Option.map_none, Option.none_or, Option.bind_none, returns]

/-- What a reader is to find of methods behind each other. -/
def declaredAll (namespaceName : String) (imports : List Import) (index : LineIndex) :
    Nat → List WrittenMethod → List MethodDeclaration
  | _, [] => []
  | offset, method :: methods =>
    method.declared namespaceName imports index (offset + 4) ::
      declaredAll namespaceName imports index (offset + Text.byteSize method.text) methods

theorem length_declaredAll (namespaceName : String) (imports : List Import) (index : LineIndex)
    (offset : Nat) (methods : List WrittenMethod) :
    (declaredAll namespaceName imports index offset methods).length = methods.length := by
  induction methods generalizing offset with
  | nil => rfl
  | cons method methods ih => rw [declaredAll, List.length_cons, ih, List.length_cons]

theorem byteSize_text (method : WrittenMethod) :
    Text.byteSize method.text = 4 + Text.byteSize method.covered + Text.byteSize method.uncovered := by
  rw [method.text_eq, Text.byteSize_append, Text.byteSize_append]
  rfl

/-- Of a method its signature is found, and nothing else. -/
theorem scanFrom_text (shape : method.WellFormed) (before : Option Char) (offset : Nat)
    (behind : List Char) :
    ∃ last, Text.scanFrom ClassSource.signaturePattern before offset 0 (method.text ++ behind) =
      ⟨⟨method.name, method.isStatic, WrittenParameter.listText method.parameters, method.returnType?⟩,
        offset + 4, offset + 4 + Text.byteSize method.covered⟩ ::
        Text.scanFrom ClassSource.signaturePattern last (offset + Text.byteSize method.text) 0 behind := by
  have indent : Text.Quiet ClassSource.signaturePattern before "    ".toList
      (method.covered ++ (method.uncovered ++ behind)) :=
    ClassSource.quiet_signaturePattern_of_marks (by decide)
  have body : Text.Quiet ClassSource.signaturePattern (method.covered.getLast?.or (some ' '))
      method.uncovered behind :=
    ClassSource.quiet_signaturePattern_of_marks method.marks_uncovered
  have found := Text.scanFrom_hit method.covered_ne_nil
    (signaturePattern_text shape (some ' ') behind) (offset + 4)
  have advance : offset + Text.byteSize method.text =
      offset + 4 + Text.byteSize method.covered + Text.byteSize method.uncovered := by
    rw [method.byteSize_text]
    omega
  refine ⟨method.uncovered.getLast?.or (method.covered.getLast?.or (some ' ')), ?_⟩
  rw [method.text_eq, List.append_assoc, List.append_assoc, Text.scanFrom_quiet indent, ← method.text_eq,
    advance, ← Text.scanFrom_quiet body]
  exact found

/-- Of methods behind each other the signatures are found one by one, and nothing else. -/
theorem map_methodOf_texts {methods : List WrittenMethod} (shape : ∀ method ∈ methods, method.WellFormed)
    {source : ClassSource} (index : LineIndex) (namespaceName : String) (imports : List Import)
    {front rest : List Char} {c : Char} (brace : c ∈ ['\x7b', '\x7d'])
    (place : source.text = front ++ [c] ++ ['\n'] ++ (methods.flatMap text ++ rest))
    (marks : ∀ d ∈ rest, d ∉ ['p', 's']) (before : Option Char) :
    let offset := Text.byteSize (front ++ [c] ++ ['\n'])
    (Text.scanFrom ClassSource.signaturePattern before offset 0 (methods.flatMap text ++ rest)).map
        (source.methodOf index namespaceName imports) =
      declaredAll namespaceName imports index offset methods := by
  intro offset
  induction methods generalizing front c before with
  | nil =>
    have quiet : Text.Quiet ClassSource.signaturePattern before rest [] :=
      ClassSource.quiet_signaturePattern_of_marks marks
    have passed := Text.scanFrom_quiet quiet offset
    rw [List.append_nil] at passed
    rw [List.flatMap_nil, List.nil_append, passed]
    rfl
  | cons method methods ih =>
    obtain ⟨first, others⟩ := List.forall_mem_cons.mp shape
    let behind := methods.flatMap text ++ rest
    rw [List.flatMap_cons, List.append_assoc] at place ⊢
    obtain ⟨last, found⟩ := scanFrom_text first before offset behind
    have here : source.text = front ++ [c] ++ ('\n' :: "    ".toList) ++
        (method.covered ++ (method.uncovered ++ behind)) := by
      rw [place, method.text_eq]
      simp only [List.append_assoc, List.cons_append, List.nil_append, behind]
    have read := methodOf_text first index namespaceName imports front brace (by decide) here
    have indented : Text.byteSize (front ++ [c] ++ ('\n' :: "    ".toList)) = offset + 4 := by
      rw [List.append_cons, Text.byteSize_append]
      rfl
    -- the methods that follow stand behind the closing brace of this one
    obtain ⟨start, closed⟩ := method.exists_uncovered
    have later : source.text = front ++ [c] ++ ['\n'] ++ ("    ".toList ++ method.covered ++ start) ++
        ['\x7d'] ++ ['\n'] ++ behind := by
      rw [place, method.text_eq, closed]
      simp only [List.append_assoc, behind]
    have further : Text.byteSize (front ++ [c] ++ ['\n'] ++ ("    ".toList ++ method.covered ++ start) ++
        ['\x7d'] ++ ['\n']) = offset + Text.byteSize method.text := by
      rw [method.text_eq, closed, ← Text.byteSize_append]
      simp only [List.append_assoc]
    have next := ih others (by decide) later last
    rw [indented] at read
    simp only [further] at next
    rw [found, List.map_cons, read, next, declaredAll]

end WrittenMethod

end FusionAtlas
