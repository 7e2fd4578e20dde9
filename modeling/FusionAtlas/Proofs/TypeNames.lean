import FusionAtlas.HostCode.ClassName
import FusionAtlas.HostCode.TypeName
import FusionAtlas.Proofs.WrittenImports

/-!
What the name of a type means. Whether a type may be null makes no difference, and of a union the first member
decides; a name of words is a keyword, the class of the object itself, or a class whose full name the
namespace and the imports give in a fixed order. Main statements: `ReturnType.parse_eq_ofName`,
`ReturnType.IsSingle.parse_append_member` and `ReturnType.parse_eq_iff_means`.
-/

set_option autoImplicit false
set_option relaxedAutoImplicit false

namespace FusionAtlas

open Text (isBlank isWord trim)

namespace ClassName

/-- The last part of a name is the name itself if nothing divides it. -/
theorem shortName_of_not_mem {name : List Char} (short : '\\' ∉ name) : shortName name = name :=
  Text.afterLast_of_not_mem short

/-- A full name ends in a shorter one, with a backslash before it, if the shorter one is its last part and
not all of it. -/
theorem endsIn_iff {name fqcn : List Char} (short : '\\' ∉ name) :
    (Text.beforeEnding? ('\\' :: name) fqcn).isSome = true ↔ shortName fqcn = name ∧ fqcn ≠ name := by
  have written : (Text.beforeEnding? ('\\' :: name) fqcn).isSome = true ↔
      ∃ front, fqcn = front ++ '\\' :: name := by
    rw [Text.beforeEnding?, Option.isSome_map, Option.isSome_iff_exists]
    constructor
    · rintro ⟨rest, opens⟩
      exact ⟨rest.reverse, List.reverse_injective (by simpa using Text.afterOpening?_eq_some opens)⟩
    · rintro ⟨front, rfl⟩
      exact ⟨front.reverse, by simpa using Text.afterOpening?_append ('\\' :: name).reverse front.reverse⟩
  rw [written]
  constructor
  · rintro ⟨front, rfl⟩
    refine ⟨Text.afterLast_append_cons front short, fun same => short ?_⟩
    exact same ▸ List.mem_append_right front (List.mem_cons_self ..)
  · rintro ⟨last, other⟩
    by_cases divided : '\\' ∈ fqcn
    · -- The last backslash is the one before the last part.
      obtain ⟨front, behind, rfl, free⟩ : ∃ front behind, fqcn = front ++ '\\' :: behind ∧ '\\' ∉ behind := by
        obtain ⟨behind, front, reversed, free⟩ := List.eq_append_cons_of_mem (List.mem_reverse.mpr divided)
        refine ⟨front.reverse, behind.reverse, List.reverse_injective (by simpa using reversed), ?_⟩
        exact fun member => free (List.mem_reverse.mp member)
      rw [shortName, Text.afterLast_append_cons front free] at last
      exact ⟨front, by rw [last]⟩
    · exact absurd ((shortName_of_not_mem divided).symm.trans last) other

end ClassName

namespace ReturnType

variable {name : List Char} {namespaceName : String} {imports : List Import}

section Unions

/-- The name of a single type, with no mark that it may be null. -/
structure IsSingle (name : List Char) : Prop where
  written : name ≠ []
  single : '|' ∉ name
  solid : ∀ c ∈ name, isBlank c = false
  sure : name.head? ≠ some '?'

instance decidableIsSingle (name : List Char) : Decidable (IsSingle name) :=
  decidable_of_iff
    (name ≠ [] ∧ '|' ∉ name ∧ (∀ c ∈ name, isBlank c = false) ∧ name.head? ≠ some '?')
    ⟨fun ⟨written, single, solid, sure⟩ => ⟨written, single, solid, sure⟩,
      fun ⟨written, single, solid, sure⟩ => ⟨written, single, solid, sure⟩⟩

theorem splitOn_append_cons (single : '|' ∉ name) (rest : List Char) :
    (name ++ '|' :: rest).splitOn '|' = name :: rest.splitOn '|' := by
  refine List.splitOnP_append_cons_of_forall_mem (fun c inside => ?_) '|' (by decide) rest
  have other : c ≠ '|' := fun same => single (same ▸ inside)
  simpa using other

theorem splitOn_of_not_mem (single : '|' ∉ name) : name.splitOn '|' = [name] := by
  refine List.splitOnP_eq_singleton fun c inside => ?_
  have other : c ≠ '|' := fun same => single (same ▸ inside)
  simpa using other

/-- The member of a union that decides is a name of its own. -/
theorem parse_of_find? {raw : List Char} (whole : List Char)
    (start : (trim raw).dropWhile (· == '?') = whole)
    (first : ((whole.splitOn '|').map trim).find? (fun member => !member.isEmpty && lower member != "null") =
      some name) :
    parse raw namespaceName imports = ofName name namespaceName imports := by
  rw [parse, start, first]

namespace IsSingle

variable (single : IsSingle name)

include single

theorem trim_eq : trim name = name := Text.trim_of_forall single.solid

theorem dropWhile_append (rest : List Char) : (name ++ rest).dropWhile (· == '?') = name ++ rest := by
  obtain ⟨c, behind, rfl⟩ := List.exists_cons_of_ne_nil single.written
  have sure : c ≠ '?' := fun same => single.sure (by rw [same, List.head?_cons])
  rw [List.cons_append, List.dropWhile_cons_of_neg (by simpa using sure)]

theorem dropWhile_eq : name.dropWhile (· == '?') = name := by
  simpa using single.dropWhile_append []

/-- Trimming keeps the name at the start of a text. -/
theorem trim_append (rest : List Char) : trim (name ++ rest) = name ++ Text.trimEnd rest := by
  have ends : Text.EndsSolid name := Text.endsSolid_of_trim single.written single.trim_eq
  obtain ⟨c, behind, rfl⟩ := List.exists_cons_of_ne_nil single.written
  rw [trim, Text.trimStart_of_solid, Text.trimEnd_append ends]
  rintro d ⟨⟩
  exact single.solid c (List.mem_cons_self ..)

/-- A name of null alone means null. -/
theorem parse_of_null (null : lower name = "null") :
    parse name namespaceName imports = .primitive "null" := by
  have none : [name].find? (fun member => !member.isEmpty && lower member != "null") = none := by
    simp [null]
  rw [parse, single.trim_eq, single.dropWhile_eq, splitOn_of_not_mem single.single, List.map_singleton,
    single.trim_eq, none]
  exact if_pos null

variable (present : lower name ≠ "null")

include present

/-- A name that is not null decides as the first member of a union. -/
theorem find?_cons (behind : List (List Char)) :
    (name :: behind).find? (fun member => !member.isEmpty && lower member != "null") = some name := by
  simp [single.written, present]

theorem parse_eq_ofName : parse name namespaceName imports = ofName name namespaceName imports := by
  refine parse_of_find? name ?_ ?_
  · rw [single.trim_eq, single.dropWhile_eq]
  · rw [splitOn_of_not_mem single.single, List.map_singleton, single.trim_eq, single.find?_cons present]

/-- A question mark before a name says only that the type may be null. -/
theorem parse_question : parse ('?' :: name) namespaceName imports = parse name namespaceName imports := by
  have solid : ∀ c ∈ '?' :: name, isBlank c = false := List.forall_mem_cons.mpr ⟨by decide, single.solid⟩
  rw [single.parse_eq_ofName present]
  refine parse_of_find? name ?_ ?_
  · rw [Text.trim_of_forall solid, List.dropWhile_cons_of_pos (by decide), single.dropWhile_eq]
  · rw [splitOn_of_not_mem single.single, List.map_singleton, single.trim_eq, single.find?_cons present]

/-- The first member of a union decides, whatever stands behind it. -/
theorem parse_append_member (member : List Char) :
    parse (name ++ '|' :: member) namespaceName imports = parse name namespaceName imports := by
  have bar : Text.EndsSolid ['|'] := ⟨[], '|', rfl, by decide⟩
  have kept : Text.trimEnd ('|' :: member) = '|' :: Text.trimEnd member := Text.trimEnd_append bar member
  rw [single.parse_eq_ofName present]
  refine parse_of_find? (name ++ '|' :: Text.trimEnd member) ?_ ?_
  · rw [single.trim_append, kept, single.dropWhile_append]
  · rw [splitOn_append_cons single.single, List.map_cons, single.trim_eq, single.find?_cons present]

/-- A null before the name is gone past. -/
theorem parse_null_append :
    parse ("null|".toList ++ name) namespaceName imports = parse name namespaceName imports := by
  have whole : "null|".toList ++ name = "null".toList ++ '|' :: name := rfl
  have solid : ∀ c ∈ "null".toList ++ '|' :: name, isBlank c = false :=
    List.forall_mem_append.mpr ⟨by decide, List.forall_mem_cons.mpr ⟨by decide, single.solid⟩⟩
  rw [single.parse_eq_ofName present, whole]
  refine parse_of_find? ("null".toList ++ '|' :: name) ?_ ?_
  · rw [Text.trim_of_forall solid]
    exact List.dropWhile_cons_of_neg (by decide)
  · rw [splitOn_append_cons (by decide), splitOn_of_not_mem single.single, List.map_cons, List.map_singleton,
      single.trim_eq, List.find?_cons_of_neg (by decide), single.find?_cons present]

end IsSingle

end Unions

section FullNames

/-- A name made of words that are joined by backslashes, a backslash before the first of them or not. -/
structure Written where
  absolute : Bool
  parts : List (List Char)
  deriving DecidableEq, Repr

namespace Written

/-- The name as it is written. -/
def text (written : Written) : List Char :=
  (if written.absolute then ['\\'] else []) ++ pathText written.parts

/-- There are parts, and each of them is a word. -/
structure WellFormed (written : Written) : Prop where
  some_part : written.parts ≠ []
  part : ∀ part ∈ written.parts, part ≠ [] ∧ ∀ c ∈ part, isWord c = true

instance decidableWellFormed (written : Written) : Decidable written.WellFormed :=
  decidable_of_iff
    (written.parts ≠ [] ∧ ∀ part ∈ written.parts, part ≠ [] ∧ ∀ c ∈ part, isWord c = true)
    ⟨fun ⟨some_part, part⟩ => ⟨some_part, part⟩, fun ⟨some_part, part⟩ => ⟨some_part, part⟩⟩

variable {written : Written}

theorem mem_text (shape : written.WellFormed) {c : Char} (inside : c ∈ written.text) :
    isWord c = true ∨ c = '\\' := by
  have inParts {parts : List (List Char)} (words : ∀ part ∈ parts, ∀ d ∈ part, isWord d = true)
      (member : c ∈ pathText parts) : isWord c = true ∨ c = '\\' := by
    induction parts with
    | nil => cases member
    | cons first others ih =>
      obtain ⟨word, words⟩ := List.forall_mem_cons.mp words
      cases others with
      | nil =>
        rw [pathText_singleton] at member
        exact Or.inl (word c member)
      | cons second others =>
        rw [pathText_cons_cons, List.mem_append, List.mem_cons] at member
        rcases member with inFirst | rfl | behind
        · exact Or.inl (word c inFirst)
        · exact Or.inr rfl
        · exact ih words behind
  rcases List.mem_append.mp inside with start | member
  · split at start
    · exact Or.inr (List.mem_singleton.mp start)
    · cases start
  · exact inParts (fun part listed => (shape.part part listed).2) member

/-- No character but those of words and the backslash stands in the name. -/
theorem not_mem_text (shape : written.WellFormed) {c : Char} (other : isWord c = false) (mark : c ≠ '\\') :
    c ∉ written.text := by
  intro inside
  rcases mem_text shape inside with word | same
  · exact absurd (other.symm.trans word) (by decide)
  · exact mark same

theorem text_ne_nil (shape : written.WellFormed) : written.text ≠ [] := by
  obtain ⟨first, others, parts⟩ := List.exists_cons_of_ne_nil shape.some_part
  have named := (shape.part first (by simp [parts])).1
  cases others with
  | nil => simp [text, parts, pathText_singleton, named]
  | cons second others => simp [text, parts, pathText_cons_cons]

theorem isSingle (shape : written.WellFormed) : IsSingle written.text where
  written := text_ne_nil shape
  single := not_mem_text shape (by decide) (by decide)
  solid := by
    intro c inside
    rcases mem_text shape inside with word | rfl
    · exact Text.isBlank_of_isWord word
    · decide
  sure := fun first => not_mem_text shape (by decide) (by decide) (List.mem_of_head? first)

end Written

/-- The name is one that stands for no class. -/
def IsKeyword (name : List Char) : Prop :=
  lower name ∈ primitiveKeywords ∨ lower name ∈ ["self", "parent", "static"]

/-- A class is imported whose last name is this one, and stands behind another. -/
def EndsIn (name : List Char) (found : Import) : Prop :=
  ClassName.shortName found.fqcn.toList = name ∧ found.fqcn.toList ≠ name

/-- What a name of words means in a namespace with the given imports. -/
inductive Means (namespaceName : String) (imports : List Import) (name : List Char) : ReturnType → Prop
  | primitive : lower name ∈ primitiveKeywords → Means namespaceName imports name (.primitive (lower name))
  | itself : lower name ∈ ["self", "parent", "static"] → Means namespaceName imports name .unresolved
  | absolute {rest : List Char} : ¬ IsKeyword name → name = '\\' :: rest →
      Means namespaceName imports name (.classRef (String.ofList rest))
  | relative : ¬ IsKeyword name → name.head? ≠ some '\\' → '\\' ∈ name →
      Means namespaceName imports name (.classRef (namespaceName ++ "\\" ++ String.ofList name))
  | known {front behind : List Import} {found : Import} : ¬ IsKeyword name → '\\' ∉ name →
      imports = front ++ found :: behind → found.knownAs.toList = name →
      (∀ earlier ∈ front, earlier.knownAs.toList ≠ name) →
      Means namespaceName imports name (.classRef found.fqcn)
  | ending {front behind : List Import} {found : Import} : ¬ IsKeyword name → '\\' ∉ name →
      (∀ listed ∈ imports, listed.knownAs.toList ≠ name) →
      imports = front ++ found :: behind → EndsIn name found → (∀ earlier ∈ front, ¬ EndsIn name earlier) →
      Means namespaceName imports name (.classRef found.fqcn)
  | own : ¬ IsKeyword name → '\\' ∉ name → (∀ listed ∈ imports, listed.knownAs.toList ≠ name) →
      (∀ listed ∈ imports, ¬ EndsIn name listed) →
      Means namespaceName imports name (.classRef (namespaceName ++ "\\" ++ String.ofList name))

section Imports

theorem find?_eq_some_of_first {p : Import → Bool} {front behind : List Import} {found : Import}
    (listed : imports = front ++ found :: behind) (holds : p found = true)
    (first : ∀ earlier ∈ front, p earlier = false) : imports.find? p = some found := by
  refine List.find?_eq_some_iff_append.mpr ⟨holds, front, behind, listed, fun earlier inFront => ?_⟩
  rw [first earlier inFront, Bool.not_false]

/-- Of the imports with a property there is a first one, if there is any. -/
theorem exists_first_or_forall_not (p : Import → Prop) [DecidablePred p] (imports : List Import) :
    (∃ front found behind, imports = front ++ found :: behind ∧ p found ∧ ∀ earlier ∈ front, ¬ p earlier) ∨
      ∀ listed ∈ imports, ¬ p listed := by
  cases searched : imports.find? fun found => decide (p found) with
  | none => exact Or.inr (by simpa using searched)
  | some found =>
    obtain ⟨holds, front, behind, listed, first⟩ := List.find?_eq_some_iff_append.mp searched
    exact Or.inl ⟨front, found, behind, listed, by simpa using holds, by simpa using first⟩

instance decidableEndsIn (name : List Char) : DecidablePred (EndsIn name) := fun _ =>
  inferInstanceAs (Decidable (_ ∧ _))

theorem isSome_beforeEnding?_eq_false (short : '\\' ∉ name) {listed : Import}
    (other : ¬ EndsIn name listed) :
    (Text.beforeEnding? ('\\' :: name) listed.fqcn.toList).isSome = false :=
  Bool.eq_false_iff.mpr fun ends => other ((ClassName.endsIn_iff short).mp ends)

/-- An import that is known by the name comes before every import that only ends in it. -/
theorem shortClass_of_known {front behind : List Import} {found : Import}
    (listed : imports = front ++ found :: behind) (known : found.knownAs.toList = name)
    (first : ∀ earlier ∈ front, earlier.knownAs.toList ≠ name) :
    shortClass name namespaceName imports = found.fqcn := by
  have search : imports.find? (fun found => found.knownAs.toList == name) = some found :=
    find?_eq_some_of_first listed (by simpa using known) (by simpa using first)
  rw [shortClass, search]
  rfl

theorem shortClass_of_ending (short : '\\' ∉ name)
    (unknown : ∀ listed ∈ imports, listed.knownAs.toList ≠ name) {front behind : List Import}
    {found : Import} (listed : imports = front ++ found :: behind) (ends : EndsIn name found)
    (first : ∀ earlier ∈ front, ¬ EndsIn name earlier) :
    shortClass name namespaceName imports = found.fqcn := by
  have search : imports.find? (fun found => found.knownAs.toList == name) = none := by simpa using unknown
  have ending := find?_eq_some_of_first
    (p := fun found => (Text.beforeEnding? ('\\' :: name) found.fqcn.toList).isSome) listed
    ((ClassName.endsIn_iff short).mpr ends)
    fun earlier inFront => isSome_beforeEnding?_eq_false short (first earlier inFront)
  rw [shortClass, search, ending]
  rfl

theorem shortClass_of_own (short : '\\' ∉ name)
    (unknown : ∀ listed ∈ imports, listed.knownAs.toList ≠ name)
    (ends : ∀ listed ∈ imports, ¬ EndsIn name listed) :
    shortClass name namespaceName imports = namespaceName ++ "\\" ++ String.ofList name := by
  have search : imports.find? (fun found => found.knownAs.toList == name) = none := by simpa using unknown
  have ending : imports.find? (fun found => (Text.beforeEnding? ('\\' :: name) found.fqcn.toList).isSome) =
      none := by
    refine List.find?_eq_none.mpr fun listed member => ?_
    rw [isSome_beforeEnding?_eq_false short (ends listed member)]
    exact Bool.false_ne_true
  rw [shortClass, search, ending]
  rfl

end Imports

variable {written : Written}

/-- The name of words is looked at as a whole: it is no array, and has no arguments. -/
theorem ofName_text (shape : written.WellFormed) :
    ofName written.text namespaceName imports =
      if primitiveKeywords.contains (lower written.text) then .primitive (lower written.text)
      else if selfKeywords.contains (lower written.text) then .unresolved
      else
        match written.text with
        | '\\' :: rest => .classRef (String.ofList rest)
        | _ =>
          if written.text.contains '\\' then .classRef (namespaceName ++ "\\" ++ String.ofList written.text)
          else .classRef (shortClass written.text namespaceName imports) := by
  have array : (Text.beforeEnding? ['[', ']'] written.text).isSome = false := by
    refine Bool.eq_false_iff.mpr fun found => ?_
    rw [Text.beforeEnding?, Option.isSome_map, Option.isSome_iff_exists] at found
    obtain ⟨rest, opens⟩ := found
    have inside : ']' ∈ written.text.reverse := Text.afterOpening?_eq_some opens ▸ List.mem_cons_self ..
    exact written.not_mem_text shape (by decide) (by decide) (List.mem_reverse.mp inside)
  have plain : written.text.takeWhile (· != '<') = written.text := by
    refine List.takeWhile_eq_self_iff.mpr fun c inside => ?_
    have other : c ≠ '<' := fun same => written.not_mem_text shape (by decide) (by decide) (same ▸ inside)
    simpa using other
  rw [ofName, array, plain]
  rfl

/-- A name that is no keyword means a class. -/
theorem parse_of_not_isKeyword (shape : written.WellFormed) (other : ¬ IsKeyword written.text) :
    parse written.text namespaceName imports =
      match written.text with
      | '\\' :: rest => .classRef (String.ofList rest)
      | _ =>
        if written.text.contains '\\' then .classRef (namespaceName ++ "\\" ++ String.ofList written.text)
        else .classRef (shortClass written.text namespaceName imports) := by
  obtain ⟨noPrimitive, noSelf⟩ := not_or.mp other
  have present : lower written.text ≠ "null" := fun null => noPrimitive (null ▸ by decide)
  rw [(written.isSingle shape).parse_eq_ofName present, ofName_text shape, if_neg (by simpa using noPrimitive),
    if_neg (by simpa [selfKeywords] using noSelf)]

/-- A name with no backslash that is no keyword means the class that is found for it. -/
theorem parse_of_short (shape : written.WellFormed) (other : ¬ IsKeyword written.text)
    (short : '\\' ∉ written.text) :
    parse written.text namespaceName imports = .classRef (shortClass written.text namespaceName imports) := by
  rw [parse_of_not_isKeyword shape other]
  split
  · next rest spelled => exact absurd (spelled ▸ List.mem_cons_self ..) short
  · exact if_neg (by simpa using short)

theorem parse_of_means (shape : written.WellFormed) {result : ReturnType}
    (means : Means namespaceName imports written.text result) :
    parse written.text namespaceName imports = result := by
  have single := written.isSingle shape
  cases means with
  | primitive keyword =>
    by_cases null : lower written.text = "null"
    · rw [single.parse_of_null null, null]
    · rw [single.parse_eq_ofName null, ofName_text shape, if_pos (by simpa using keyword)]
  | itself keyword =>
    have noPrimitive : lower written.text ∉ primitiveKeywords := by
      simp only [List.mem_cons, List.not_mem_nil, or_false] at keyword
      rcases keyword with self | self | self <;> simp [self, primitiveKeywords]
    have present : lower written.text ≠ "null" := fun null => noPrimitive (null ▸ by decide)
    rw [single.parse_eq_ofName present, ofName_text shape, if_neg (by simpa using noPrimitive),
      if_pos (by simpa [selfKeywords] using keyword)]
  | absolute other spelled =>
    rw [parse_of_not_isKeyword shape other, spelled]
    rfl
  | relative other start divided =>
    rw [parse_of_not_isKeyword shape other]
    split
    · next rest spelled => exact absurd (by rw [spelled, List.head?_cons]) start
    · exact if_pos (by simpa using divided)
  | known other short listed known first =>
    rw [parse_of_short shape other short, shortClass_of_known listed known first]
  | ending other short unknown listed ends first =>
    rw [parse_of_short shape other short, shortClass_of_ending short unknown listed ends first]
  | own other short unknown ends =>
    rw [parse_of_short shape other short, shortClass_of_own short unknown ends]

/-- Every name means something. -/
theorem exists_means (namespaceName : String) (imports : List Import) (name : List Char) :
    ∃ result, Means namespaceName imports name result := by
  by_cases keyword : IsKeyword name
  · rcases keyword with primitive | itself
    · exact ⟨_, .primitive primitive⟩
    · exact ⟨_, .itself itself⟩
  by_cases divided : '\\' ∈ name
  · by_cases start : name.head? = some '\\'
    · obtain ⟨rest, spelled⟩ := List.head?_eq_some_iff.mp start
      exact ⟨_, .absolute keyword spelled⟩
    · exact ⟨_, .relative keyword start divided⟩
  rcases exists_first_or_forall_not (fun found => found.knownAs.toList = name) imports with
    ⟨front, found, behind, listed, known, first⟩ | unknown
  · exact ⟨_, .known keyword divided listed known first⟩
  rcases exists_first_or_forall_not (EndsIn name) imports with
    ⟨front, found, behind, listed, ends, first⟩ | others
  · exact ⟨_, .ending keyword divided unknown listed ends first⟩
  · exact ⟨_, .own keyword divided unknown others⟩

theorem parse_eq_iff_means (shape : written.WellFormed) (result : ReturnType) :
    parse written.text namespaceName imports = result ↔ Means namespaceName imports written.text result := by
  refine ⟨fun parsed => ?_, parse_of_means shape⟩
  obtain ⟨meant, means⟩ := exists_means namespaceName imports written.text
  exact parsed ▸ (parse_of_means shape means).symm ▸ means

end FullNames

/-- The name of a single type means the same with a mark that it may be null and as the first member of a
union, and a name of words means what the order of keywords, full names and imports gives it. -/
theorem parse_nullable_and_iff_means (namespaceName : String) (imports : List Import) :
    (∀ name, IsSingle name → lower name ≠ "null" →
      parse ('?' :: name) namespaceName imports = parse name namespaceName imports ∧
      parse (name ++ "|null".toList) namespaceName imports = parse name namespaceName imports ∧
      parse ("null|".toList ++ name) namespaceName imports = parse name namespaceName imports ∧
      ∀ member, parse (name ++ '|' :: member) namespaceName imports = parse name namespaceName imports) ∧
    ∀ written : Written, written.WellFormed → ∀ result,
      parse written.text namespaceName imports = result ↔
        Means namespaceName imports written.text result :=
  ⟨fun _ single present => ⟨single.parse_question present, single.parse_append_member present "null".toList,
    single.parse_null_append present, single.parse_append_member present⟩,
   fun _ shape result => parse_eq_iff_means shape result⟩

/-- Three imports for one short name, of which the last is known by it and the first two end in it. -/
def contestedImports : List Import := [⟨"Acme\\Node", "Leaf"⟩, ⟨"Other\\Node", "Other"⟩, ⟨"Acme\\Tree", "Node"⟩]

/-- The import known by a name decides, though others end in it; without it the first of those does. -/
theorem parse_contestedImports :
    (IsSingle "Node".toList ∧ lower "Node".toList ≠ "null" ∧ Written.WellFormed ⟨false, ["Node".toList]⟩) ∧
    parse "?Node".toList "Site" contestedImports = .classRef "Acme\\Tree" ∧
    parse "Node|int[]|null".toList "Site" (contestedImports.take 2) = .classRef "Acme\\Node" := by
  have single : IsSingle "Node".toList := by decide
  have present : lower "Node".toList ≠ "null" := by decide
  have shape : Written.WellFormed ⟨false, ["Node".toList]⟩ := by decide
  have other : ¬ IsKeyword (Written.text ⟨false, ["Node".toList]⟩) := by
    rintro (keyword | keyword) <;> revert keyword <;> decide
  refine ⟨⟨single, present, shape⟩, ?_, ?_⟩
  · refine (((parse_nullable_and_iff_means "Site" contestedImports).1 _ single present).1).trans ?_
    exact ((parse_nullable_and_iff_means "Site" contestedImports).2 _ shape _).mpr
      (@Means.known _ _ _ (contestedImports.take 2) [] _ other (by decide) rfl rfl (by decide))
  · refine (((parse_nullable_and_iff_means "Site" (contestedImports.take 2)).1 _ single present).2.2.2
      "int[]|null".toList).trans ?_
    exact ((parse_nullable_and_iff_means "Site" (contestedImports.take 2)).2 _ shape _).mpr
      (@Means.ending _ _ _ [] _ _ other (by decide) (by decide) rfl (by decide) (by decide))

end ReturnType

end FusionAtlas
