import FusionAtlas.Proofs.ParameterReading

/-!
Parameter lists that were written from their parameters. A comma in brackets or quotes belongs to a default
value, and the marks before a name belong to that parameter alone, so that reading the list finds what was
written. Main statements: `ParameterList.Balanced.kept`, by which a balanced text is not divided, and
`WrittenParameter.parse_listText`.
-/

set_option autoImplicit false
set_option relaxedAutoImplicit false

namespace FusionAtlas

namespace Text

/-- The numbers of the blanks. -/
private def blankCodes : List Nat :=
  List.range' 9 5 ++ [0x20, 0x85, 0xA0, 0x1680] ++ List.range' 0x2000 11 ++
    [0x2028, 0x2029, 0x202F, 0x205F, 0x3000]

/-- No word holds a blank. -/
theorem isBlank_of_isWord {c : Char} (word : isWord c = true) : isBlank c = false := by
  by_contra blank
  have coded : c.toNat ∈ blankCodes := by
    simp only [isBlank, Bool.not_eq_false, Bool.or_eq_true, Bool.and_eq_true, decide_eq_true_eq,
      beq_iff_eq] at blank
    simp only [blankCodes, List.mem_append, List.mem_range'_1, List.mem_cons, List.not_mem_nil, or_false]
    omega
  have never : ∀ n ∈ blankCodes, isWord (Char.ofNat n) = false := by decide +kernel
  have none := never c.toNat coded
  rw [Char.ofNat_toNat, word] at none
  cases none

/-- A run is taken up to a character that is none of it. -/
theorem takeRun?_append {p : Char → Bool} {run rest : List Char} (written : run ≠ [])
    (all : ∀ c ∈ run, p c = true) (stop : ∀ c ∈ rest.head?, p c = false) :
    takeRun? p (run ++ rest) = some (run, rest) := by
  have taken := takeWhile_append_of_head all stop
  have left := dropWhile_append_of_head all stop
  obtain ⟨first, others, rfl⟩ := List.exists_cons_of_ne_nil written
  simp only [takeRun?, taken, left]

theorem takeRun?_eq_none {p : Char → Bool} {text : List Char} (stop : ∀ c ∈ text.head?, p c = false) :
    takeRun? p text = none := by
  cases text with
  | nil => rfl
  | cons c text => simp [takeRun?, stop c rfl]

end Text

namespace ParameterList

open FusionAtlas.Text (afterBlanks? afterOpening? isBlank isWord takeRun? trim trimEnd trimStart)

/-- The inside of a quoted text up to the quote that closes it. A backslash takes the character behind it
along. -/
inductive Quoted (quote : Char) : List Char → Prop
  | close : Quoted quote [quote]
  | escaped {c : Char} {rest : List Char} : Quoted quote rest → Quoted quote ('\\' :: c :: rest)
  | plain {c : Char} {rest : List Char} : c ≠ '\\' → c ≠ quote → Quoted quote rest →
      Quoted quote (c :: rest)

/-- Every bracket and every quote is closed, and `commas` tells whether there may be commas outside of
them. -/
inductive Balanced : Bool → List Char → Prop
  | nil {commas : Bool} : Balanced commas []
  | plain {commas : Bool} {c : Char} {rest : List Char} : c ∉ ['\'', '"', '(', '[', ')', ']'] →
      (c = ',' → commas = true) → Balanced commas rest → Balanced commas (c :: rest)
  | quoted {commas : Bool} {quote : Char} {inner rest : List Char} : quote ∈ ['\'', '"'] →
      Quoted quote inner → Balanced commas rest → Balanced commas (quote :: (inner ++ rest))
  | bracketed {commas : Bool} {opening closing : Char} {inner rest : List Char} :
      opening ∈ ['(', '['] → closing ∈ [')', ']'] → Balanced true inner → Balanced commas rest →
      Balanced commas (opening :: (inner ++ closing :: rest))

/-- A quoted text is left at the quote that closes it, and no comma of it separates. -/
theorem Quoted.kept {quote : Char} {inner : List Char} (isQuote : quote ∈ ['\'', '"'])
    (closed : Quoted quote inner) (depth : Nat) :
    Uncut ⟨depth, some quote, false⟩ inner ∧
      Nesting.behind ⟨depth, some quote, false⟩ inner = ⟨depth, none, false⟩ := by
  have notEscape : quote ≠ '\\' := by
    rintro rfl
    simp at isQuote
  induction closed with
  | close => simp [Uncut, Nesting.behind, Nesting.next, Nesting.atTop, notEscape]
  | escaped _ ih => simpa [Uncut, Nesting.behind_cons, Nesting.next, Nesting.atTop] using ih
  | plain notBackslash notQuote _ ih =>
    simpa [Uncut, Nesting.behind_cons, Nesting.next, Nesting.atTop, notBackslash, notQuote] using ih

/-- No comma of a balanced text separates, and the nesting behind it is that before it. -/
theorem Balanced.kept {commas : Bool} {text : List Char} (balanced : Balanced commas text) (depth : Nat)
    (inside : commas = true → 0 < depth) :
    Uncut ⟨depth, none, false⟩ text ∧ Nesting.behind ⟨depth, none, false⟩ text = ⟨depth, none, false⟩ := by
  induction balanced generalizing depth with
  | nil => exact ⟨trivial, rfl⟩
  | @plain commas c text plain comma _ ih =>
    have kept : ¬(c = ',' ∧ Nesting.atTop ⟨depth, none, false⟩ = true) := by
      rintro ⟨same, top⟩
      have deep := inside (comma same)
      simp only [Nesting.atTop, Option.isNone_none, Bool.true_and, beq_iff_eq] at top
      omega
    simp only [List.mem_cons, List.not_mem_nil, or_false, not_or] at plain
    have same : Nesting.next ⟨depth, none, false⟩ c = ⟨depth, none, false⟩ := by
      simp [Nesting.next, plain]
    rw [Uncut, Nesting.behind_cons, same]
    exact ⟨⟨kept, (ih depth inside).1⟩, (ih depth inside).2⟩
  | @quoted commas quote inner text isQuote closed _ ih =>
    have opens : Nesting.next ⟨depth, none, false⟩ quote = ⟨depth, some quote, false⟩ := by
      rcases List.mem_pair.mp isQuote with rfl | rfl <;> simp [Nesting.next]
    have kept : quote ≠ ',' := by
      rcases List.mem_pair.mp isQuote with rfl | rfl <;> decide
    obtain ⟨uncut, behind⟩ := closed.kept isQuote depth
    rw [Uncut, Nesting.behind_cons, opens, uncut_append, Nesting.behind_append, behind]
    exact ⟨⟨fun comma => kept comma.1, uncut, (ih depth inside).1⟩, (ih depth inside).2⟩
  | @bracketed commas opening closing inner text isOpening isClosing _ _ innerIh ih =>
    have opens : Nesting.next ⟨depth, none, false⟩ opening = ⟨depth + 1, none, false⟩ := by
      rcases List.mem_pair.mp isOpening with rfl | rfl <;> simp [Nesting.next]
    have closes : Nesting.next ⟨depth + 1, none, false⟩ closing = ⟨depth, none, false⟩ := by
      rcases List.mem_pair.mp isClosing with rfl | rfl <;> simp [Nesting.next]
    have keptOpening : opening ≠ ',' := by
      rcases List.mem_pair.mp isOpening with rfl | rfl <;> decide
    have keptClosing : closing ≠ ',' := by
      rcases List.mem_pair.mp isClosing with rfl | rfl <;> decide
    obtain ⟨uncut, behind⟩ := innerIh (depth + 1) fun _ => Nat.succ_pos depth
    rw [Uncut, Nesting.behind_cons, opens, uncut_append, Nesting.behind_append, behind, Uncut,
      Nesting.behind_cons, closes]
    exact ⟨⟨fun comma => keptOpening comma.1, uncut, fun comma => keptClosing comma.1, (ih depth inside).1⟩,
      (ih depth inside).2⟩

/-- A list of balanced texts is divided between them. -/
theorem divided_of_balanced (first : List Char) (others : List (List Char))
    (balanced : ∀ part ∈ first :: others, Balanced false part) : Divided (first :: others) := by
  induction others generalizing first with
  | nil => exact .last ((balanced first (List.mem_cons_self ..)).kept 0 (by simp)).1
  | cons second others ih =>
    obtain ⟨firstBalanced, othersBalanced⟩ := List.forall_mem_cons.mp balanced
    obtain ⟨uncut, ends⟩ := firstBalanced.kept 0 (by simp)
    exact .more uncut ends (ih second othersBalanced)

theorem Balanced.append {commas : Bool} {front behind : List Char} (first : Balanced commas front)
    (second : Balanced commas behind) : Balanced commas (front ++ behind) := by
  induction first with
  | nil => exact second
  | plain other comma _ ih => exact .plain other comma (ih second)
  | quoted isQuote closed _ ih =>
    rw [List.cons_append, List.append_assoc]
    exact .quoted isQuote closed (ih second)
  | bracketed isOpening isClosing inner _ _ ih =>
    rw [List.cons_append, List.append_assoc, List.cons_append]
    exact .bracketed isOpening isClosing inner (ih second)

/-- A text without brackets, quotes and commas. -/
theorem Balanced.of_plain {commas : Bool} {text : List Char}
    (plain : ∀ c ∈ text, c ∉ ['\'', '"', '(', '[', ')', ']', ',']) : Balanced commas text := by
  induction text with
  | nil => exact .nil
  | cons c text ih =>
    have first := plain c (List.mem_cons_self ..)
    simp only [List.mem_cons, List.not_mem_nil, or_false, not_or] at first
    exact .plain (by simp [first]) (fun comma => absurd comma first.2.2.2.2.2.2)
      (ih fun c member => plain c (List.mem_cons_of_mem _ member))

/-- A text of characters of a class that holds no brackets, quotes and commas. -/
theorem Balanced.of_class {commas : Bool} {text : List Char} {p : Char → Bool}
    (apart : ∀ c ∈ ['\'', '"', '(', '[', ')', ']', ','], p c = false) (all : ∀ c ∈ text, p c = true) :
    Balanced commas text :=
  .of_plain fun c member listed => Bool.false_ne_true ((apart c listed).symm.trans (all c member))

/-- Names of types, joined by ampersands. -/
inductive IsType : List Char → Prop
  | one {member : List Char} : member ≠ [] → (∀ c ∈ member, isTypeChar c = true) → IsType member
  | join {member rest : List Char} : member ≠ [] → (∀ c ∈ member, isTypeChar c = true) → IsType rest →
      IsType (member ++ '&' :: rest)

theorem IsType.written {type : List Char} (shape : IsType type) :
    type ≠ [] ∧ ∀ c ∈ type, c = '&' ∨ isTypeChar c = true := by
  induction shape with
  | one written chars => exact ⟨written, fun c member => Or.inr (chars c member)⟩
  | join written chars _ ih =>
    refine ⟨by simp, fun c member => ?_⟩
    rcases List.mem_append.mp member with inside | rest
    · exact Or.inr (chars c inside)
    · rcases List.mem_cons.mp rest with rfl | behind
      · exact Or.inl rfl
      · exact ih.2 c behind

theorem isBlank_of_isTypeChar {c : Char} (type : isTypeChar c = true) : isBlank c = false := by
  simp only [isTypeChar, Bool.or_eq_true, beq_iff_eq] at type
  rcases type with ((rfl | rfl) | rfl) | word
  · decide
  · decide
  · decide
  · exact Text.isBlank_of_isWord word

theorem takeMembers_type {type : List Char} (shape : IsType type) {fuel : Nat}
    (enough : type.length ≤ fuel) (rest : List Char) :
    takeMembers (fuel + 1) ('&' :: (type ++ ' ' :: rest)) = ('&' :: type, ' ' :: rest) := by
  have stop : ∀ c ∈ (' ' :: rest).head?, isTypeChar c = false := by
    rintro c ⟨⟩
    decide
  induction shape generalizing fuel with
  | one written chars =>
    have taken := Text.takeRun?_append written chars stop
    cases fuel <;> simp [takeMembers, taken]
  | @join member more written chars _ ih =>
    simp only [List.length_append, List.length_cons] at enough
    obtain ⟨fuel, rfl⟩ : ∃ n, fuel = n + 1 := ⟨fuel - 1, by omega⟩
    have between : ∀ c ∈ ('&' :: (more ++ ' ' :: rest)).head?, isTypeChar c = false := by
      rintro c ⟨⟩
      decide
    have taken := Text.takeRun?_append written chars between
    rw [takeMembers, List.append_assoc, List.cons_append, taken]
    simp only
    rw [ih (by omega)]

theorem takeType?_type {type : List Char} (shape : IsType type) {rest : List Char}
    (solid : ∀ c ∈ rest.head?, Text.isBlank c = false) :
    takeType? (type ++ ' ' :: rest) = some (type, rest) := by
  have blanks : Text.afterBlanks? (' ' :: rest) = some rest := by
    rw [Text.afterBlanks?, if_pos (by decide), Text.trimStart_of_solid solid]
  cases shape with
  | one written chars =>
    have stop : ∀ c ∈ (' ' :: rest).head?, isTypeChar c = false := by
      rintro c ⟨⟩
      decide
    have taken := Text.takeRun?_append written chars stop
    simp [takeType?, taken, takeMembers, blanks]
  | @join member more written chars others =>
    have between : ∀ c ∈ ('&' :: (more ++ ' ' :: rest)).head?, isTypeChar c = false := by
      rintro c ⟨⟩
      decide
    have taken := Text.takeRun?_append written chars between
    have enough : more.length ≤ more.length + rest.length + 1 := by omega
    have size : ('&' :: (more ++ ' ' :: rest)).length = more.length + rest.length + 1 + 1 := by
      simp only [List.length_cons, List.length_append]
      omega
    simp only [takeType?, Option.bind_eq_bind, List.append_assoc, List.cons_append]
    rw [taken, Option.bind_some, size, takeMembers_type others enough, blanks]
    rfl

theorem readDefault?_default {default : Option (List Char)}
    (shape : ∀ value, default = some value → value ≠ [] ∧ Text.trim value = value) :
    readDefault? ((default.map (" = ".toList ++ ·)).getD []) = some default := by
  cases default with
  | none => rfl
  | some value =>
    obtain ⟨written, trimmed⟩ := shape value rfl
    have inner : Text.trim (' ' :: value) = value := by
      rw [Text.trim, Text.trimStart, List.dropWhile_cons_of_pos (by decide)]
      exact trimmed
    change (if (Text.trim (' ' :: value)).isEmpty = true then none
      else some (some (Text.trim (' ' :: value)))) = some (some value)
    rw [inner, if_neg (by simpa using written)]

end ParameterList

/-- A parameter as it is written. -/
structure WrittenParameter where
  type : Option (List Char)
  byReference : Bool
  spread : Bool
  name : List Char
  default : Option (List Char)
  deriving DecidableEq, Repr

namespace WrittenParameter

open ParameterList

/-- The marks between the type and the name. -/
def marks (parameter : WrittenParameter) : List Char :=
  (if parameter.byReference then ['&'] else []) ++ (if parameter.spread then "...".toList else [])

/-- The parameter as it is written. -/
def text (parameter : WrittenParameter) : List Char :=
  (parameter.type.map (· ++ [' '])).getD [] ++ (parameter.marks ++ '$' :: (parameter.name ++
    (parameter.default.map (" = ".toList ++ ·)).getD []))

/-- What a reader is to find. -/
def declared (parameter : WrittenParameter) : Parameter :=
  ⟨parameter.type.map String.ofList, parameter.spread, String.ofList parameter.name,
    parameter.default.map String.ofList⟩

/-- The type is made of names and is no modifier, the name is a word, and a default value is trimmed and
keeps its commas in brackets or quotes. -/
structure WellFormed (parameter : WrittenParameter) : Prop where
  type : ∀ type, parameter.type = some type → IsType type ∧ String.ofList type ∉ modifiers
  name : parameter.name ≠ [] ∧ ∀ c ∈ parameter.name, Text.isWord c = true
  default : ∀ default, parameter.default = some default →
    default ≠ [] ∧ Text.trim default = default ∧ Balanced false default

variable {parameter : WrittenParameter}

theorem head?_marks (parameter : WrittenParameter) (rest : List Char) :
    ∀ c ∈ (parameter.marks ++ '$' :: rest).head?, c ∈ ['&', '.', '$'] := by
  cases byReference : parameter.byReference <;> cases spread : parameter.spread <;>
    simp [marks, byReference, spread]

theorem modifier_shape {modifier : String} (listed : modifier ∈ modifiers) :
    modifier.toList.head? ∈ [some 'p', some 'r'] ∧ ∀ c ∈ modifier.toList, Text.isBlank c = false := by
  simp only [modifiers, List.mem_cons, List.not_mem_nil, or_false] at listed
  rcases listed with rfl | rfl | rfl | rfl <;> decide

/-- A parameter without a type begins with a mark, and no modifier does. -/
theorem ne_modifier_of_untyped (untyped : parameter.type = none) {modifier : String}
    (listed : modifier ∈ modifiers) (rest : List Char) : parameter.text ≠ modifier.toList ++ rest := by
  intro whole
  have letters := (modifier_shape listed).1
  obtain ⟨first, others, spelled⟩ :
      ∃ first others, parameter.marks ++ '$' :: (parameter.name ++
        (parameter.default.map (" = ".toList ++ ·)).getD []) = first :: others :=
    List.exists_cons_of_ne_nil (by simp)
  have mark := head?_marks parameter (parameter.name ++
    (parameter.default.map (" = ".toList ++ ·)).getD []) first (by rw [spelled]; rfl)
  obtain ⟨letter, more, letterFirst⟩ : ∃ letter more, modifier.toList = letter :: more := by
    refine List.exists_cons_of_ne_nil fun none => ?_
    simp [none] at letters
  rw [text, untyped, spelled, letterFirst] at whole
  obtain rfl := (List.cons.inj whole).1
  rw [letterFirst] at letters
  simp only [List.mem_cons, List.not_mem_nil, or_false] at mark
  rcases mark with rfl | rfl | rfl <;> simp at letters

/-- A type in front of a blank is no modifier unless it is spelled as one. -/
theorem ne_modifier_of_typed {type : List Char} (shape : IsType type)
    (notModifier : String.ofList type ∉ modifiers) (typed : parameter.type = some type) {modifier : String}
    (listed : modifier ∈ modifiers) {c : Char} (blank : Text.isBlank c = true) (rest : List Char) :
    parameter.text ≠ modifier.toList ++ c :: rest := by
  intro whole
  have typeSolid : ∀ d ∈ type, (!Text.isBlank d) = true := by
    intro d member
    rcases shape.written.2 d member with rfl | inType
    · decide
    · simp [isBlank_of_isTypeChar inType]
  have letterSolid : ∀ d ∈ modifier.toList, (!Text.isBlank d) = true := by
    intro d member
    simp [(modifier_shape listed).2 d member]
  -- Both texts are the run of characters in front of the first blank.
  have runs := congrArg (List.takeWhile fun d => !Text.isBlank d) whole
  rw [text, typed, Option.map_some, Option.getD_some, List.append_assoc,
    List.takeWhile_append_of_pos typeSolid, List.takeWhile_append_of_pos letterSolid,
    List.singleton_append, List.takeWhile_cons_of_neg (by decide),
    List.takeWhile_cons_of_neg (by simp [blank]), List.append_nil, List.append_nil] at runs
  rw [runs, String.ofList_toList] at notModifier
  exact notModifier listed

/-- No modifier is read in a parameter that has none. -/
theorem afterModifier?_text (shape : parameter.WellFormed) : afterModifier? parameter.text = none := by
  rw [afterModifier?, List.findSome?_eq_none_iff]
  intro modifier listed
  rw [Option.bind_eq_none_iff]
  intro rest opens
  have whole := Text.afterOpening?_eq_some opens
  cases rest with
  | nil => rfl
  | cons c rest =>
    by_cases blank : Text.isBlank c = true
    · exfalso
      cases typed : parameter.type with
      | none => exact ne_modifier_of_untyped typed listed (c :: rest) whole
      | some type =>
        obtain ⟨typeShape, notModifier⟩ := shape.type type typed
        exact ne_modifier_of_typed typeShape notModifier typed listed blank rest whole
    · rw [Text.afterBlanks?, if_neg blank]

theorem dropModifiers_text (shape : parameter.WellFormed) (fuel : Nat) :
    dropModifiers fuel parameter.text = parameter.text := by
  cases fuel with
  | zero => rfl
  | succ fuel => rw [dropModifiers, afterModifier?_text shape]

theorem head?_text (shape : parameter.WellFormed) :
    ∀ c ∈ parameter.text.head?, c ∈ ['&', '.', '$'] ∨ isTypeChar c = true := by
  cases typed : parameter.type with
  | none =>
    intro c first
    rw [text, typed] at first
    exact Or.inl (head?_marks parameter _ c first)
  | some type =>
    obtain ⟨written, chars⟩ := (shape.type type typed).1.written
    obtain ⟨first, others, rfl⟩ := List.exists_cons_of_ne_nil written
    rw [text, typed]
    rintro c ⟨⟩
    rcases chars first (List.mem_cons_self ..) with rfl | inType
    · exact Or.inl (by simp)
    · exact Or.inr inType

theorem dropAttributes_text (shape : parameter.WellFormed) :
    dropAttributes parameter.text = parameter.text := by
  refine dropAttributes_of_not_prefix ?_
  rintro ⟨rest, opened⟩
  rcases head?_text shape '#' (by rw [← opened]; rfl) with mark | inType
  · simp at mark
  · exact absurd inType (by decide)

theorem afterOpening?_marks (parameter : WrittenParameter) (rest : List Char) :
    let text := parameter.marks ++ '$' :: rest
    let unreferenced := (Text.afterOpening? ['&'] text).getD text
    let spread := Text.afterOpening? "...".toList unreferenced
    spread.isSome = parameter.spread ∧ Text.trimStart (spread.getD unreferenced) = '$' :: rest := by
  cases byReference : parameter.byReference <;> cases spread : parameter.spread <;>
    simp [marks, byReference, spread, Text.afterOpening?, Text.trimStart] <;> decide

/-- A parameter is read back from its text. -/
theorem parseOne?_text (shape : parameter.WellFormed) {piece : List Char}
    (trimmed : Text.trim piece = parameter.text) : parseOne? piece = some parameter.declared := by
  let behind := parameter.name ++ (parameter.default.map (" = ".toList ++ ·)).getD []
  have name : Text.takeRun? Text.isWord behind =
      some (parameter.name, (parameter.default.map (" = ".toList ++ ·)).getD []) := by
    refine Text.takeRun?_append shape.name.1 shape.name.2 ?_
    cases parameter.default with
    | none => simp
    | some value =>
      rintro c ⟨⟩
      decide
  have default := readDefault?_default fun value given =>
    ⟨(shape.default value given).1, (shape.default value given).2.1⟩
  have mark : ∀ c ∈ (parameter.marks ++ '$' :: behind).head?,
      Text.isBlank c = false ∧ isTypeChar c = false := by
    intro c first
    have mark := head?_marks parameter behind c first
    simp only [List.mem_cons, List.not_mem_nil, or_false] at mark
    rcases mark with rfl | rfl | rfl <;> decide
  obtain ⟨spread, named⟩ := afterOpening?_marks parameter behind
  rw [parseOne?, trimmed, dropAttributes_text shape, dropModifiers_text shape]
  cases given : parameter.type with
  | none =>
    have untyped : parameter.text = parameter.marks ++ '$' :: behind := by
      rw [text, given]
      rfl
    have none : takeType? parameter.text = none := by
      rw [takeType?, untyped, Text.takeRun?_eq_none fun c first => (mark c first).2]
      rfl
    rw [none]
    simp only
    rw [untyped, named]
    simp only [name, default, spread, Option.bind_eq_bind, Option.bind_some, declared, given]
    rfl
  | some type =>
    have whole : parameter.text = type ++ ' ' :: (parameter.marks ++ '$' :: behind) := by
      simp [text, given, behind]
    rw [whole, takeType?_type (shape.type type given).1 fun c first => (mark c first).1]
    simp only
    rw [named]
    simp only [name, default, spread, Option.bind_eq_bind, Option.bind_some, declared, given]
    rfl

/-- Nothing in the text of a parameter separates it. -/
theorem balanced_text (shape : parameter.WellFormed) : Balanced false parameter.text := by
  have type : Balanced false ((parameter.type.map (· ++ [' '])).getD []) := by
    cases given : parameter.type with
    | none => exact .nil
    | some type =>
      have members : Balanced false type :=
        .of_class (p := fun c => c == '&' || isTypeChar c) (by decide) fun c member => by
          simpa using (shape.type type given).1.written.2 c member
      exact members.append (.of_plain (by decide))
  have marks : Balanced false parameter.marks := by
    cases byReference : parameter.byReference <;> cases spread : parameter.spread <;>
      exact .of_plain (by simp [WrittenParameter.marks, byReference, spread])
  have name : Balanced false ('$' :: parameter.name) :=
    .plain (by decide) (by decide) (.of_class (by decide) shape.name.2)
  have default : Balanced false ((parameter.default.map (" = ".toList ++ ·)).getD []) := by
    cases given : parameter.default with
    | none => exact .nil
    | some value => exact Balanced.append (.of_plain (by decide)) (shape.default value given).2.2
  exact type.append (marks.append (name.append default))

theorem endsSolid_text (shape : parameter.WellFormed) : Text.EndsSolid parameter.text := by
  refine Text.EndsSolid.append _ (Text.EndsSolid.append _ ?_)
  cases given : parameter.default with
  | none =>
    obtain ⟨front, last, name⟩ := (List.eq_nil_or_concat' parameter.name).resolve_left shape.name.1
    refine ⟨'$' :: front, last, by simp [name], Text.isBlank_of_isWord (shape.name.2 last ?_)⟩
    simp [name]
  | some value =>
    obtain ⟨written, trimmed, -⟩ := shape.default value given
    refine Text.EndsSolid.append ('$' :: parameter.name) (Text.EndsSolid.append " = ".toList ?_)
    exact Text.endsSolid_of_trim written trimmed

theorem trim_text (shape : parameter.WellFormed) : Text.trim parameter.text = parameter.text := by
  have solid : ∀ c ∈ parameter.text.head?, Text.isBlank c = false := by
    intro c first
    rcases head?_text shape c first with mark | inType
    · simp only [List.mem_cons, List.not_mem_nil, or_false] at mark
      rcases mark with rfl | rfl | rfl <;> decide
    · exact isBlank_of_isTypeChar inType
  rw [Text.trim, Text.trimStart_of_solid solid, (endsSolid_text shape).trimEnd]

/-- Parameters as they are written behind each other. -/
def listText (parameters : List WrittenParameter) : List Char :=
  ", ".toList.intercalate (parameters.map text)

theorem listText_cons_cons (first second : WrittenParameter) (others : List WrittenParameter) :
    listText (first :: second :: others) =
      first.text ++ (',' :: ' ' :: listText (second :: others)) := by
  simp [listText, List.intercalate_cons_cons]

/-- Behind the first parameter, the blank of each joint goes to the parameter behind it. -/
theorem listText_eq (first : WrittenParameter) (others : List WrittenParameter) :
    listText (first :: others) =
      [','].intercalate (first.text :: others.map fun other => ' ' :: other.text) := by
  induction others generalizing first with
  | nil => simp [listText]
  | cons second others ih =>
    rw [listText_cons_cons, ih, List.map_cons, List.intercalate_cons_cons]
    cases others <;> simp [List.intercalate_cons_cons]

/-- A written list is divided where it was joined. -/
theorem pieces_listText (first : WrittenParameter) (others : List WrittenParameter)
    (shape : ∀ parameter ∈ first :: others, parameter.WellFormed) :
    pieces (listText (first :: others)) = first.text :: others.map fun other => ' ' :: other.text := by
  rw [listText_eq]
  refine (divided_of_balanced _ _ ?_).pieces
  obtain ⟨firstShape, shapes⟩ := List.forall_mem_cons.mp shape
  rw [List.forall_mem_cons, List.forall_mem_map]
  exact ⟨balanced_text firstShape, fun other listed =>
    .plain (by decide) (by decide) (balanced_text (shapes other listed))⟩

/-- What is read from a written list are the parameters that were written. -/
theorem parse_listText {parameters : List WrittenParameter}
    (shape : ∀ parameter ∈ parameters, parameter.WellFormed) :
    parse (listText parameters) = parameters.map declared := by
  cases parameters with
  | nil => rfl
  | cons first others =>
    obtain ⟨firstShape, shapes⟩ := List.forall_mem_cons.mp shape
    rw [parse_eq_filterMap, pieces_listText first others shape,
      List.filterMap_cons_some (parseOne?_text firstShape (trim_text firstShape)), List.map_cons,
      List.filterMap_map, List.cons.injEq]
    refine ⟨rfl, List.filterMap_eq_map_iff_forall_eq_some.mpr fun other listed => ?_⟩
    have blank : Text.trim (' ' :: other.text) = Text.trim other.text :=
      @Text.trim_append [' '] other.text (by decide)
    exact parseOne?_text (shapes other listed) (blank.trans (trim_text (shapes other listed)))

/-- Whether a parameter is spread is nothing its shape depends on. -/
theorem WellFormed.withSpread (shape : parameter.WellFormed) (spread : Bool) :
    WellFormed { parameter with spread } :=
  ⟨shape.type, shape.name, shape.default⟩

/-- A written list reads as what was written, in order, and to mark one of its parameters as spread or not
changes what is read for this parameter alone. -/
theorem parse_printed {parameters : List WrittenParameter}
    (shape : ∀ parameter ∈ parameters, parameter.WellFormed) :
    parse (listText parameters) = parameters.map declared ∧
      ∀ front parameter behind spread, parameters = front ++ parameter :: behind →
        parse (listText (front ++ { parameter with spread } :: behind)) =
          front.map declared ++ { parameter.declared with spread } :: behind.map declared := by
  refine ⟨parse_listText shape, ?_⟩
  rintro front parameter behind spread rfl
  obtain ⟨frontShape, behindShape⟩ := List.forall_mem_append.mp shape
  obtain ⟨parameterShape, behindShape⟩ := List.forall_mem_cons.mp behindShape
  have marked : ∀ other ∈ front ++ { parameter with spread } :: behind, other.WellFormed :=
    List.forall_mem_append.mpr
      ⟨frontShape, List.forall_mem_cons.mpr ⟨parameterShape.withSpread spread, behindShape⟩⟩
  rw [parse_listText marked, List.map_append, List.map_cons]
  rfl

/-- A comma and a bracket in a default value, in front of another parameter. -/
theorem parse_printed_default :
    parse "?A&\\B &...$x = [',', f(')')], $y".toList =
      [⟨some "?A&\\B", true, "x", some "[',', f(')')]"⟩, ⟨none, false, "y", none⟩] := by
  have quotedComma : Quoted '\'' [',', '\''] := .plain (by decide) (by decide) .close
  have quotedBracket : Quoted '\'' [')', '\''] := .plain (by decide) (by decide) .close
  have call : Balanced true ('f' :: '(' :: (['\'', ')', '\''] ++ ')' :: [])) :=
    .plain (by decide) (by decide)
      (.bracketed (by decide) (by decide) (.quoted (by decide) quotedBracket .nil) .nil)
  have inner : Balanced true ('\'' :: ([',', '\''] ++ ", f(')')".toList)) :=
    .quoted (by decide) quotedComma
      (.plain (by decide) (by decide) (.plain (by decide) (by decide) call))
  have default : Balanced false ('[' :: ("',', f(')')".toList ++ ']' :: [])) :=
    .bracketed (by decide) (by decide) inner .nil
  have type : IsType ("?A".toList ++ '&' :: "\\B".toList) :=
    .join (by decide) (by decide) (.one (by decide) (by decide))
  let first : WrittenParameter := ⟨some "?A&\\B".toList, true, true, ['x'], some "[',', f(')')]".toList⟩
  let second : WrittenParameter := ⟨none, false, false, ['y'], none⟩
  have firstShape : first.WellFormed :=
    ⟨by rintro _ ⟨⟩; exact ⟨type, by decide⟩, by decide, by
      rintro _ ⟨⟩; exact ⟨by decide, by decide, default⟩⟩
  have secondShape : second.WellFormed := ⟨by rintro _ ⟨⟩, by decide, by rintro _ ⟨⟩⟩
  exact (parse_printed (List.forall_mem_cons.mpr ⟨firstShape, List.forall_mem_singleton.mpr secondShape⟩)).1

end WrittenParameter

end FusionAtlas
