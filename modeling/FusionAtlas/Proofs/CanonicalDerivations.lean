import FusionAtlas.Proofs.CanonicalSyntax
import FusionAtlas.Proofs.Grammar

/-!
The tokens of a printed expression write its tree. Where its lexemes stand in the text, the grammar
derives from their tokens an expression that differs from the tree in nothing but ranges. Main
statement: `Canonical.Expr.writes`.
-/

set_option autoImplicit false
set_option relaxedAutoImplicit false

namespace FusionAtlas

open FusionAtlas.Text (byteSize)

namespace Template.Source

/-- The characters stand in the text at the offset. -/
def Holds (source : Source) (start : Nat) (chars : List Char) : Prop :=
  ∃ front behind, source.text = front ++ chars ++ behind ∧ byteSize front = start

variable {source : Source} {start : Nat} {first second : List Char}

theorem Holds.left (holds : source.Holds start (first ++ second)) : source.Holds start first := by
  obtain ⟨front, behind, text, offset⟩ := holds
  refine ⟨front, second ++ behind, ?_, offset⟩
  rw [text]
  simp only [List.append_assoc]

theorem Holds.right (holds : source.Holds start (first ++ second)) :
    source.Holds (start + byteSize first) second := by
  obtain ⟨front, behind, text, offset⟩ := holds
  refine ⟨front ++ first, behind, ?_, ?_⟩
  · rw [text]
    simp only [List.append_assoc]
  · rw [Text.byteSize_append, offset]

theorem Holds.quote (holds : source.Holds start first) :
    Template.quote source ⟨start, start + byteSize first⟩ = String.ofList first := by
  obtain ⟨front, behind, text, rfl⟩ := holds
  rw [Template.quote, piece?, if_pos (Nat.le_add_right _ _), text, Text.slice?_append]
  rfl

end Template.Source

namespace Canonical

open FusionAtlas.Token.Lexer
open FusionAtlas.Template (Source Derives IsNumber IsComponent)

variable {source : Source} {lexemes front behind : List Lexeme} {kind : TokenKind}
  {text : List Char} {P Q : List Token → Prop}

/-- The tokens of some lexemes from an offset on, without those that mean nothing. -/
def tokensAt (start : Nat) (lexemes : List Lexeme) : List Token :=
  (placeAt start lexemes).filter fun t => !t.kind.isTrivia

theorem tokensAt_append (start : Nat) (front behind : List Lexeme) :
    tokensAt start (front ++ behind) =
      tokensAt start front ++ tokensAt (start + byteSize (spell front)) behind := by
  rw [tokensAt, placeAt_append, List.filter_append]
  rfl

theorem tokensAt_cons (start : Nat) (means : kind.isTrivia = false) :
    tokensAt start (⟨kind, text⟩ :: lexemes) =
      ⟨kind, String.ofList text, start⟩ :: tokensAt (start + byteSize text) lexemes := by
  rw [tokensAt, placeAt, List.filter_cons_of_pos (by rw [means]; rfl)]
  rfl

theorem tokensAt_trivia (start : Nat) (blank : kind.isTrivia = true) :
    tokensAt start (⟨kind, text⟩ :: lexemes) = tokensAt (start + byteSize text) lexemes := by
  rw [tokensAt, placeAt, List.filter_cons_of_neg (by rw [blank]; exact Bool.false_ne_true)]
  rfl

/-- Wherever the lexemes stand in the text, their tokens are such. -/
def Writes (source : Source) (lexemes : List Lexeme) (P : List Token → Prop) : Prop :=
  ∀ start, source.Holds start (spell lexemes) → P (tokensAt start lexemes)

namespace Writes

theorem imp (writes : Writes source lexemes P) (implies : ∀ ts, P ts → Q ts) :
    Writes source lexemes Q := fun start holds => implies _ (writes start holds)

theorem nil (here : P []) : Writes source [] P := fun _ _ => here

theorem append (first : Writes source front P) (second : Writes source behind Q) :
    Writes source (front ++ behind) fun ts => ∃ us vs, ts = us ++ vs ∧ P us ∧ Q vs := by
  intro start holds
  rw [spell_append] at holds
  rw [tokensAt_append]
  exact ⟨_, _, rfl, first start holds.left, second _ holds.right⟩

theorem cons (means : kind.isTrivia = false) (more : Writes source lexemes P) :
    Writes source (⟨kind, text⟩ :: lexemes) fun ts =>
      ∃ t us, ts = t :: us ∧ t.kind = kind ∧ t.text = String.ofList text ∧ P us := by
  intro start holds
  rw [spell_cons] at holds
  rw [tokensAt_cons start means]
  exact ⟨_, _, rfl, rfl, rfl, more _ holds.right⟩

theorem space (more : Writes source lexemes P) : Writes source (Canonical.space :: lexemes) P := by
  intro start holds
  rw [spell_cons] at holds
  rw [Canonical.space, tokensAt_trivia start rfl]
  exact more _ holds.right

/-- A token alone. -/
theorem single (means : kind.isTrivia = false) :
    Writes source [⟨kind, text⟩] fun ts =>
      ∃ t, ts = [t] ∧ t.kind = kind ∧ t.text = String.ofList text :=
  fun start _ => ⟨⟨kind, String.ofList text, start⟩, tokensAt_cons start means, rfl, rfl⟩

/-- Lexemes between two signs. -/
theorem enclose {opening closing : TokenKind} (opens : opening.isTrivia = false)
    (closes : closing.isTrivia = false) (inside : Writes source lexemes P) :
    Writes source (sign opening :: (lexemes ++ [sign closing])) fun ts =>
      ∃ first us last, ts = first :: us ++ [last] ∧ first.kind = opening ∧ P us ∧
        last.kind = closing := by
  refine (cons opens (inside.append (single closes))).imp ?_
  rintro _ ⟨first, _, rfl, kind, -, us, _, rfl, here, last, rfl, kind', -⟩
  exact ⟨first, us, last, rfl, kind, here, kind'⟩

end Writes

section Words

/-- What a lexeme is does not change where it stands. -/
theorem map_kind_placeAt (start : Nat) (lexemes : List Lexeme) :
    (placeAt start lexemes).map Token.kind = lexemes.map Lexeme.kind := by
  induction lexemes generalizing start with
  | nil => rfl
  | cons lexeme lexemes ih => rw [placeAt, List.map_cons, List.map_cons, ih]

theorem contiguous_placeAt (start : Nat) (lexemes : List Lexeme) :
    Token.Contiguous start (placeAt start lexemes) := by
  induction lexemes generalizing start with
  | nil => trivial
  | cons lexeme lexemes ih =>
    refine ⟨rfl, ?_⟩
    rw [Token.stop, String.toList_ofList]
    exact ih _

theorem written_placeAt (start : Nat) (lexemes : List Lexeme) :
    Token.written (placeAt start lexemes) = spell lexemes := by
  induction lexemes generalizing start with
  | nil => rfl
  | cons lexeme lexemes ih =>
    rw [placeAt, Token.written_cons, ih, String.toList_ofList, spell_cons]

theorem tokensAt_eq_placeAt (start : Nat) (means : ∀ l ∈ lexemes, l.kind.isTrivia = false) :
    tokensAt start lexemes = placeAt start lexemes := by
  refine List.filter_eq_self.mpr fun t member => ?_
  have kind : t.kind ∈ lexemes.map Lexeme.kind := by
    rw [← map_kind_placeAt start]
    exact List.mem_map_of_mem member
  obtain ⟨l, listed, same⟩ := List.mem_map.mp kind
  rw [← same, means l listed]
  rfl

/-- The tokens of lexemes of which each means something follow one another to their end. -/
theorem stop_placeAt (start : Nat) (lexemes : List Lexeme) :
    ((placeAt start lexemes).getLast?.map Token.stop).getD start =
      start + byteSize (spell lexemes) := by
  rw [Token.stop_of_contiguous (contiguous_placeAt start lexemes), written_placeAt]

theorem Numeral.means (numeral : Numeral) : ∀ l ∈ numeral.lexemes, l.kind.isTrivia = false := by
  obtain ⟨negative, whole, fraction⟩ := numeral
  cases negative <;> cases fraction <;>
  simp [lexemes, fractionLexemes, sign, Digits.lexeme, TokenKind.isTrivia]

theorem Numeral.writes (numeral : Numeral) :
    Writes source numeral.lexemes fun ts => ∃ r, IsNumber source ts r numeral.text := by
  intro start holds
  have adjacent := contiguous_placeAt start numeral.lexemes
  refine ⟨⟨start, start + byteSize (spell numeral.lexemes)⟩, ?_⟩
  rw [text, ← holds.quote, tokensAt_eq_placeAt start numeral.means,
    ← stop_placeAt start numeral.lexemes]
  obtain ⟨negative, whole, fraction⟩ := numeral
  cases negative with
  | false =>
    cases fraction with
    | none => exact @IsNumber.whole source none ⟨.number, whole.text, start⟩ _ nofun rfl rfl
    | some digits =>
      exact @IsNumber.decimal source none ⟨.number, whole.text, start⟩ _ _ _ nofun rfl rfl rfl
        adjacent.2.1 adjacent.2.2.1 rfl
  | true =>
    have minus : ∀ m ∈ some (⟨.minus, "-", start⟩ : Token), m.kind = .minus := by
      rintro m ⟨⟩
      rfl
    cases fraction with
    | none => exact @IsNumber.whole source (some ⟨.minus, "-", start⟩) _ _ minus rfl rfl
    | some digits =>
      exact @IsNumber.decimal source (some ⟨.minus, "-", start⟩) _ _ _ _ minus rfl rfl rfl
        adjacent.2.2.1 adjacent.2.2.2.1 rfl

theorem unquote_quoted (quoted : Quoted) :
    Template.unquote (String.ofList quoted.lexeme.text) = quoted.text := by
  rw [Template.unquote, String.toList_ofList, Quoted.lexeme, List.drop_succ_cons, List.drop_zero,
    List.dropLast_concat]
  rfl

theorem continues_dotted (words : List Identifier) :
    ∀ l ∈ DottedName.dotted words, Template.continuesComponent l.kind = true := by
  induction words with
  | nil => exact fun _ => nofun
  | cons word words ih => exact List.forall_mem_cons.mpr ⟨rfl, List.forall_mem_cons.mpr ⟨rfl, ih⟩⟩

/-- What stands behind the first identifier of a component name. -/
def ComponentName.others (component : ComponentName) : List Lexeme :=
  DottedName.dotted component.package.others ++ sign .colon :: component.name.lexemes

theorem ComponentName.continues (component : ComponentName) :
    ∀ l ∈ component.others, Template.continuesComponent l.kind = true :=
  List.forall_mem_append.mpr ⟨continues_dotted _,
    List.forall_mem_cons.mpr ⟨rfl, List.forall_mem_cons.mpr ⟨rfl, continues_dotted _⟩⟩⟩

theorem isTrivia_of_continuesComponent {kind : TokenKind}
    (continues : Template.continuesComponent kind = true) : kind.isTrivia = false := by
  cases kind <;> cases continues <;> rfl

/-- Lexemes that a name of a component may consist of write one if a colon is among them. -/
theorem writes_component {first : Lexeme} {others : List Lexeme}
    (start : first.kind = .ident ∨ first.kind = .number)
    (continues : ∀ l ∈ others, Template.continuesComponent l.kind = true)
    (colon : ∃ l ∈ others, l.kind = .colon) :
    Writes source (first :: others) fun ts => ∃ t more r, ts = t :: more ∧ t.kind = first.kind ∧
      t.text = String.ofList first.text ∧
      IsComponent source t more r (String.ofList (spell (first :: others))) := by
  intro offset holds
  have means := fun l member => isTrivia_of_continuesComponent (continues l member)
  have means' : first.kind.isTrivia = false := by rcases start with kind | kind <;> rw [kind] <;> rfl
  have tokens : tokensAt offset (first :: others) =
      ⟨first.kind, String.ofList first.text, offset⟩ ::
        placeAt (offset + byteSize first.text) others := by
    rw [tokensAt_cons offset means', tokensAt_eq_placeAt _ means]
  rw [tokens]
  refine ⟨_, _, ⟨offset, offset + byteSize (spell (first :: others))⟩, rfl, rfl, rfl, ?_⟩
  have stop : (⟨first.kind, String.ofList first.text, offset⟩ : Token).stop =
      offset + byteSize first.text := by
    rw [Token.stop, String.toList_ofList]
  refine ⟨start, fun t member => ?_, ?_, ?_, ?_, holds.quote.symm⟩
  · have kind := List.mem_map_of_mem (f := Token.kind) member
    rw [map_kind_placeAt] at kind
    obtain ⟨l, listed, same⟩ := List.mem_map.mp kind
    rw [← same]
    exact continues l listed
  · rw [stop]
    exact contiguous_placeAt _ _
  · obtain ⟨l, listed, colon⟩ := colon
    have kind : .colon ∈ others.map Lexeme.kind := List.mem_map.mpr ⟨l, listed, colon⟩
    rw [← map_kind_placeAt (offset + byteSize first.text)] at kind
    exact List.mem_map.mp kind
  · have last := stop_placeAt offset (first :: others)
    rw [placeAt, List.getLast?_cons, Option.map_some, Option.getD_some] at last
    exact congrArg (ByteRange.mk offset) last.symm

theorem ComponentName.writes (component : ComponentName) :
    Writes source component.lexemes fun ts => ∃ first more r, ts = first :: more ∧
      first.kind = .ident ∧ first.text = component.package.first.text ∧
      IsComponent source first more r component.text :=
  writes_component (.inl rfl) component.continues
    ⟨_, List.mem_append_right _ List.mem_cons_self, rfl⟩

end Words

section Expressions

open FusionAtlas.Template (Phrase argumentsBare segmentsBare precedence? boolean? isNull)

/-- What the tokens of an expression are read as: where parentheses are left out, as an operand. -/
def phrase (isCompound : Bool) (e : Template.Expr) : Phrase :=
  if isCompound then .expression e else .primary e

/-- The tokens write the phrase of an expression that is such, places apart. -/
def WritesTree (source : Source) (lexemes : List Lexeme) (tree : Template.Expr)
    (phrase : Template.Expr → Phrase) : Prop :=
  Writes source lexemes fun ts => ∃ found : Template.Expr, found.bare = tree ∧
    Derives source ts (phrase found)

variable {tree : Template.Expr} {isCompound : Bool}

theorem derives_of_primary {ts : List Token} {e : Template.Expr} (level : Nat)
    (primary : Derives source ts (.primary e)) : Derives source ts (.binary level e) :=
  .operand (.positive primary)

theorem WritesTree.expression (writes : WritesTree source lexemes tree (phrase isCompound)) :
    WritesTree source lexemes tree .expression := by
  refine writes.imp ?_
  rintro ts ⟨found, same, derives⟩
  refine ⟨found, same, ?_⟩
  cases isCompound with
  | true => exact derives
  | false => exact .condition (derives_of_primary 1 derives)

theorem WritesTree.enclosed (writes : WritesTree source lexemes tree (phrase isCompound)) :
    WritesTree source (Canonical.enclosed isCompound lexemes) tree .primary := by
  cases isCompound with
  | false => exact writes
  | true =>
    refine (Writes.enclose rfl rfl writes).imp ?_
    rintro _ ⟨first, us, last, rfl, opens, ⟨found, same, derives⟩, closes⟩
    exact ⟨found, same, .parenthesised opens derives closes⟩

theorem writes_text (quoted : Quoted) :
    WritesTree source [quoted.lexeme] (.text nowhere quoted.text) .primary := by
  refine (Writes.single rfl).imp ?_
  rintro _ ⟨t, rfl, kind, text⟩
  have value := (congrArg Template.unquote text).trans (unquote_quoted quoted)
  exact ⟨.text t.range (Template.unquote t.text), congrArg (Template.Expr.text nowhere) value,
    .text kind⟩

theorem writes_number (numeral : Numeral) :
    WritesTree source numeral.lexemes (.number nowhere numeral.text) .primary := by
  refine numeral.writes.imp ?_
  rintro ts ⟨r, written⟩
  exact ⟨_, rfl, .number written⟩

theorem boolean?_booleanLexeme (value : Bool) :
    boolean? (String.ofList (booleanLexeme value).text) = some value := by
  cases value <;> decide

theorem writes_boolean (value : Bool) :
    WritesTree source [booleanLexeme value] (.boolean nowhere value) .primary := by
  refine (Writes.single rfl).imp ?_
  rintro _ ⟨t, rfl, kind, text⟩
  exact ⟨_, rfl, .boolean kind (text ▸ boolean?_booleanLexeme value)⟩

theorem isNull_constant : isNull (String.ofList (constant "null").text) = true := by decide

theorem writes_null : WritesTree source [constant "null"] (.null nowhere) .primary := by
  refine (Writes.single rfl).imp ?_
  rintro _ ⟨t, rfl, kind, text⟩
  exact ⟨_, rfl, .null kind (text ▸ isNull_constant)⟩

theorem writes_negation (operand : WritesTree source lexemes tree .primary) :
    WritesTree source (sign .bang :: lexemes) (.negation nowhere tree) .expression := by
  refine (Writes.cons rfl operand).imp ?_
  rintro _ ⟨t, us, rfl, kind, -, found, rfl, derives⟩
  exact ⟨_, rfl, .condition (.operand (.negation kind (.positive derives)))⟩

theorem one_le_of_precedence? {p : Nat} (binds : precedence? kind = some p) : 1 ≤ p := by
  cases kind <;> cases binds <;> decide

theorem writes_operation {left right : Template.Expr} (operator : Operator)
    (first : WritesTree source front left .primary)
    (second : WritesTree source behind right .primary) :
    WritesTree source (front ++ space :: sign operator.1 :: space :: behind)
      (.operation nowhere left (String.ofList (sign operator.1).text) right) .expression := by
  obtain ⟨kind, binds⟩ := operator
  obtain ⟨p, binds⟩ := Option.isSome_iff_exists.mp binds
  have means : kind.isTrivia = false := by cases kind <;> cases binds <;> rfl
  refine (first.append (Writes.space (Writes.cons means (Writes.space second)))).imp ?_
  rintro _ ⟨us, _, rfl, ⟨l, rfl, derives⟩, t, vs, rfl, rfl, text, r, rfl, derives'⟩
  refine ⟨_, ?_, .condition (.operation binds (one_le_of_precedence? binds)
    (derives_of_primary p derives) (derives_of_primary (p + 1) derives'))⟩
  rw [Template.Expr.bare, text]
  rfl

theorem writes_ternary {condition thenBranch elseBranch : Template.Expr} {last : List Lexeme}
    (first : WritesTree source front condition .primary)
    (second : WritesTree source behind thenBranch .primary)
    (third : WritesTree source last elseBranch .primary) :
    WritesTree source (front ++ space :: sign .question :: space ::
      (behind ++ space :: sign .colon :: space :: last))
      (.ternary nowhere condition thenBranch elseBranch) .expression := by
  refine (first.append (Writes.space (Writes.cons rfl (Writes.space (second.append (Writes.space
    (Writes.cons rfl (Writes.space third)))))))).imp ?_
  rintro _ ⟨us, _, rfl, ⟨c, rfl, asked⟩, mark, _, rfl, question, -, vs, _, rfl, ⟨l, rfl, derives⟩,
    colon, ws, rfl, between, -, r, rfl, derives'⟩
  have whole := Derives.ternary (derives_of_primary 1 asked) question
    (.condition (derives_of_primary 1 derives)) between (.condition (derives_of_primary 1 derives'))
  rw [List.append_assoc] at whole
  exact ⟨_, rfl, whole⟩

/-- Arguments from a place on where an expression is expected, or nothing. -/
def WritesArguments (source : Source) (lexemes : List Lexeme) (items : List Template.Argument) :
    Prop :=
  Writes source lexemes fun ts => ∃ found, argumentsBare found = items ∧
    Derives source ts (.arguments found)

/-- Arguments behind another one. -/
def WritesFurther (source : Source) (lexemes : List Lexeme) (items : List Template.Argument) :
    Prop :=
  Writes source lexemes fun ts => ∃ found, argumentsBare found = items ∧
    ∀ front e, Derives source front (.expression e) →
      Derives source (front ++ ts) (.arguments (.given e :: found))

theorem writes_arguments_cons {items : List Template.Argument}
    (first : WritesTree source front tree .expression)
    (others : WritesFurther source behind items) :
    WritesArguments source (front ++ behind) (.given tree :: items) := by
  refine (first.append others).imp ?_
  rintro _ ⟨us, vs, rfl, ⟨e, rfl, derives⟩, found, rfl, more⟩
  exact ⟨.given e :: found, rfl, more us e derives⟩

theorem writes_further_nil : WritesFurther source [] [] := by
  refine Writes.nil ⟨[], rfl, fun front e derives => ?_⟩
  rw [List.append_nil]
  exact .lastArgument derives

theorem writes_further_cons {items : List Template.Argument}
    (first : WritesTree source front tree .expression)
    (others : WritesFurther source behind items) :
    WritesFurther source (sign .comma :: space :: (front ++ behind)) (.given tree :: items) := by
  refine (Writes.cons rfl (Writes.space (first.append others))).imp ?_
  rintro _ ⟨comma, _, rfl, between, -, us, vs, rfl, ⟨e, rfl, derives⟩, found, rfl, more⟩
  exact ⟨.given e :: found, rfl, fun front e' derives' =>
    .argument derives' between (more us e derives)⟩

/-- A link of a chain, with the identifier that it starts with. -/
def WritesLink (source : Source) (word : Identifier) (lexemes : List Lexeme)
    (segment : Template.Segment) : Prop :=
  Writes source (word.lexeme :: lexemes) fun ts => ∃ found : Template.Segment,
    found.bare = segment ∧ (∃ t us, ts = t :: us ∧ t.kind = .ident ∧ t.text = word.text) ∧
      Derives source ts (.link found)

/-- The links of a chain behind another one. -/
def WritesLinks (source : Source) (lexemes : List Lexeme) (segments : List Template.Segment) :
    Prop :=
  Writes source lexemes fun ts => ∃ found, segmentsBare found = segments ∧
    ∀ front segment, Derives source front (.link segment) →
      Derives source (front ++ ts) (.chain (segment :: found))

theorem writes_name (word : Identifier) : WritesLink source word [] (.name nowhere word.text) := by
  refine (Writes.single rfl).imp ?_
  rintro _ ⟨t, rfl, kind, text⟩
  refine ⟨.name t.range t.text, ?_, ⟨t, [], rfl, kind, text⟩, .name kind⟩
  rw [Template.Segment.bare, text]
  rfl

theorem writes_call (word : Identifier) {items : List Template.Argument}
    (inside : WritesArguments source lexemes items) :
    WritesLink source word (sign .leftParen :: (lexemes ++ [sign .rightParen]))
      (.call nowhere word.text items) := by
  refine (Writes.cons rfl (Writes.enclose rfl rfl inside)).imp ?_
  rintro _ ⟨t, _, rfl, kind, text, opening, us, closing, rfl, opens, ⟨found, rfl, derives⟩, closes⟩
  refine ⟨.call ⟨t.start, closing.stop⟩ t.text found, ?_, ⟨t, _, rfl, kind, text⟩,
    .call kind opens derives closes⟩
  rw [Template.Segment.bare, text]
  rfl

theorem writes_links_nil : WritesLinks source [] [] := by
  refine Writes.nil ⟨[], rfl, fun front segment derives => ?_⟩
  rw [List.append_nil]
  exact .lastLink derives

theorem writes_links_cons {word : Identifier} {segment : Template.Segment}
    {segments : List Template.Segment} (first : WritesLink source word front segment)
    (others : WritesLinks source behind segments) :
    WritesLinks source (sign .dot :: word.lexeme :: (front ++ behind)) (segment :: segments) := by
  refine (Writes.cons rfl (first.append others)).imp ?_
  rintro _ ⟨dot, _, rfl, between, -, us, vs, rfl, ⟨link, rfl, -, derives⟩, found, rfl, more⟩
  exact ⟨link :: found, rfl, fun front segment' derives' =>
    .links derives' between (more us link derives)⟩

theorem Identifier.isName {word : Identifier} {t : Token} (plain : word.isConstant = false)
    (kind : t.kind = .ident) (text : t.text = word.text) : Template.IsName t := by
  rw [isConstant, ← text, Bool.or_eq_false_iff] at plain
  exact ⟨kind, Option.not_isSome_iff_eq_none.mp (by rw [plain.1]; exact Bool.false_ne_true),
    plain.2⟩

theorem writes_chain {head : Identifier} {segment : Template.Segment}
    {segments : List Template.Segment} (plain : head.isConstant = false)
    (first : WritesLink source head front segment)
    (others : WritesLinks source behind segments) :
    WritesTree source (head.lexeme :: (front ++ behind)) (.chain nowhere (segment :: segments))
      .primary := by
  refine (first.append others).imp ?_
  rintro _ ⟨_, vs, rfl, ⟨link, rfl, ⟨t, us, rfl, kind, text⟩, derives⟩, found, rfl, more⟩
  obtain ⟨last, ends⟩ : ∃ last, (link :: found).getLast? = some last :=
    ⟨_, List.getLast?_cons⟩
  exact ⟨_, rfl, .chain (head.isName plain kind text) (more _ link derives) ends⟩

theorem writes_array {items : List Template.Argument}
    (inside : WritesArguments source lexemes items) :
    WritesTree source (sign .leftBracket :: (lexemes ++ [sign .rightBracket]))
      (.array nowhere items) .primary := by
  refine (Writes.enclose rfl rfl inside).imp ?_
  rintro _ ⟨opening, us, closing, rfl, opens, ⟨found, rfl, derives⟩, closes⟩
  exact ⟨_, rfl, .array opens derives closes⟩

mutual

/-- The tokens of a canonical expression write its tree. -/
theorem Expr.writes (source : Source) :
    ∀ e : Expr, WritesTree source e.lexemes e.tree (phrase e.isCompound)
  | .text quoted => writes_text quoted
  | .number numeral => writes_number numeral
  | .boolean value => writes_boolean value
  | .null => writes_null
  | .array items => writes_array (writes_arguments source items)
  | .chain head plain call links =>
    writes_chain plain (call.writes source head) (writes_links source links)
  | .negation operand => writes_negation (operand.writes source).enclosed
  | .operation left operator right =>
    writes_operation operator (left.writes source).enclosed (right.writes source).enclosed
  | .ternary condition thenBranch elseBranch =>
    writes_ternary (condition.writes source).enclosed (thenBranch.writes source).enclosed
      (elseBranch.writes source).enclosed

theorem writes_arguments (source : Source) :
    ∀ items : List Expr, WritesArguments source (argumentLexemes items) (argumentsTree items)
  | [] => Writes.nil ⟨[], rfl, .noArguments⟩
  | e :: more => writes_arguments_cons (e.writes source).expression (writes_further source more)

theorem writes_further (source : Source) :
    ∀ items : List Expr, WritesFurther source (furtherLexemes items) (argumentsTree items)
  | [] => writes_further_nil
  | e :: more => writes_further_cons (e.writes source).expression (writes_further source more)

theorem Call.writes (source : Source) (word : Identifier) :
    ∀ call : Call, WritesLink source word call.lexemes (call.tree word)
  | .absent => writes_name word
  | .given arguments => writes_call word (writes_arguments source arguments)

theorem writes_links (source : Source) :
    ∀ links : List Link, WritesLinks source (linkLexemes links) (linksTree links)
  | [] => writes_links_nil
  | .mk word call :: more => writes_links_cons (call.writes source word) (writes_links source more)

end

end Expressions

end Canonical

end FusionAtlas
