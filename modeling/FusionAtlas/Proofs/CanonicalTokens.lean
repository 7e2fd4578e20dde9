import FusionAtlas.Proofs.CanonicalSyntax

/-!
The text of a canonical template is cut into the lexemes it was printed from. A word is followed by
a character that no word goes on with, an operator by a blank, and the word `include` by no colon.
Main statement: `Canonical.tokenize_print`.
-/

set_option autoImplicit false
set_option relaxedAutoImplicit false

namespace FusionAtlas.Canonical

open FusionAtlas.Token.Lexer

section Words

/-- Some kind of token is always spelled so. -/
theorem spelled_sign {kind : TokenKind} (always : (symbol? kind).isSome = true) :
    Spelled kind (sign kind).text := by
  obtain ⟨text, same⟩ := Option.isSome_iff_exists.mp always
  refine .symbol ?_
  rw [sign, same]
  rfl

theorem Identifier.spelled (word : Identifier) : Spelled .ident word.chars :=
  .ident word.starts word.continues

theorem Digits.spelled (digits : Digits) : Spelled .number digits.chars :=
  .number digits.starts digits.continues

theorem Quoted.spelled (quoted : Quoted) : Spelled .string quoted.lexeme.text :=
  .string (.inl rfl) quoted.plain

theorem Embedded.spelled (block : Embedded) : Spelled .dsl block.lexeme.text :=
  .embedded block.starts block.continues block.plain

theorem spelled_boolean (value : Bool) : Spelled .ident (booleanLexeme value).text := by
  cases value with
  | true => exact .ident (by decide) (List.all_eq_true.mp (by decide))
  | false => exact .ident (by decide) (List.all_eq_true.mp (by decide))

theorem spelled_null : Spelled .ident (constant "null").text :=
  .ident (by decide) (List.all_eq_true.mp (by decide))

theorem spelled_prototype : Spelled .ident (constant "prototype").text :=
  .ident (by decide) (List.all_eq_true.mp (by decide))

end Words

section Phrases

variable {front behind lexemes : List Lexeme} {ahead : List Char} {kind : TokenKind} {d : Char}

/-- No character ahead goes on with a word, nor makes it the sign of an embedded block. -/
def EndsWord (ahead : List Char) : Prop :=
  ∀ d, ahead.head? = some d → continuesIdent d = false ∧ d ≠ '`'

theorem endsWord_cons (outside : continuesIdent d = false) (other : d ≠ '`') :
    EndsWord (d :: ahead) := by
  intro e here
  obtain rfl := Option.some.inj here
  exact ⟨outside, other⟩

namespace EndsWord

theorem ident (ends : EndsWord ahead) : Ends .ident ahead := by
  intro d here
  obtain ⟨outside, other⟩ := ends d here
  rw [admits, outside, bne_iff_ne.mpr other]
  rfl

theorem number (ends : EndsWord ahead) : Ends .number ahead := by
  intro d here
  have outside := (ends d here).1
  rw [admits, Bool.not_eq_true', ← Bool.not_eq_true]
  intro digit
  rw [continuesIdent_of_isDigit digit] at outside
  cases outside

end EndsWord

/-- The first character is no blank and no equals sign. -/
def Opens (lexemes : List Lexeme) : Prop :=
  ∃ d more, spell lexemes = d :: more ∧ isSpace d = false ∧ d ≠ '='

theorem Opens.append (opens : Opens front) : Opens (front ++ behind) := by
  obtain ⟨d, more, first, others⟩ := opens
  exact ⟨d, more ++ spell behind, by rw [spell_append, first, List.cons_append], others⟩

theorem opens_cons {rest : List Char} (space : isSpace d = false) (other : d ≠ '=') :
    Opens (⟨kind, d :: rest⟩ :: lexemes) := ⟨d, _, rfl, space, other⟩

theorem Opens.ends (opens : Opens lexemes) : Ends .whitespace (spell lexemes ++ ahead) := by
  obtain ⟨d, more, first, space, -⟩ := opens
  rw [first]
  intro e here
  obtain rfl := Option.some.inj here
  rw [admits, space]
  rfl

/-- Wherever no word character follows, the lexemes are cut as they were spelled. -/
def Cuts (lexemes : List Lexeme) : Prop := ∀ ahead, EndsWord ahead → Cut false false lexemes ahead

/-- Words end before the lexemes. -/
def Parts (lexemes : List Lexeme) : Prop :=
  ∀ ahead, EndsWord ahead → EndsWord (spell lexemes ++ ahead)

theorem parts_nil : Parts [] := fun _ ends => ends

theorem parts_cons {rest : List Char} (outside : continuesIdent d = false) (other : d ≠ '`') :
    Parts (⟨kind, d :: rest⟩ :: lexemes) := fun _ _ => endsWord_cons outside other

theorem parts_space : Parts (space :: lexemes) := parts_cons (by decide) (by decide)

theorem parts_sign (always : (symbol? kind).isSome = true) : Parts (sign kind :: lexemes) := by
  cases kind <;> cases always <;> exact parts_cons (by decide) (by decide)

/-- A kind that is always spelled alike and that no character goes on with. -/
structure Alone (kind : TokenKind) : Prop where
  always : (symbol? kind).isSome = true
  free : ∀ d, admits kind d = true

namespace Cuts

theorem nil : Cuts [] := fun ahead _ => Cut.nil false ahead

theorem append (first : Cuts front) (parts : Parts behind) (second : Cuts behind) :
    Cuts (front ++ behind) :=
  fun ahead apart => Cut.append (first _ (parts ahead apart)) (second ahead apart)

theorem cons {text : List Char} (spelled : Spelled kind text) (space : kind ≠ .whitespace)
    (line : kind ≠ .includeLine)
    (ends : ∀ ahead, EndsWord ahead → Ends kind (spell lexemes ++ ahead)) (more : Cuts lexemes) :
    Cuts (⟨kind, text⟩ :: lexemes) :=
  fun ahead apart => Cut.cons (Cut.of_spelled spelled space line (ends ahead apart) fun _ => rfl)
    (more ahead apart)

theorem word {text : List Char} (spelled : Spelled .ident text) (parts : Parts lexemes)
    (more : Cuts lexemes) : Cuts (⟨.ident, text⟩ :: lexemes) :=
  cons spelled (by decide) (by decide) (fun ahead apart => (parts ahead apart).ident) more

theorem number {text : List Char} (spelled : Spelled .number text) (parts : Parts lexemes)
    (more : Cuts lexemes) : Cuts (⟨.number, text⟩ :: lexemes) :=
  cons spelled (by decide) (by decide) (fun ahead apart => (parts ahead apart).number) more

theorem string {text : List Char} (spelled : Spelled .string text) : Cuts [⟨.string, text⟩] :=
  cons spelled (by decide) (by decide) (fun _ _ _ _ => rfl) nil

theorem embedded {text : List Char} (spelled : Spelled .dsl text) : Cuts [⟨.dsl, text⟩] :=
  cons spelled (by decide) (by decide) (fun _ _ _ _ => rfl) nil

/-- A sign that goes on with nothing may stand before anything. -/
theorem sign (alone : Alone kind) (more : Cuts lexemes) :
    Cuts (Canonical.sign kind :: lexemes) := by
  refine cons (spelled_sign alone.always) ?_ ?_ (fun _ _ d _ => alone.free d) more
  · rintro rfl
    cases alone.always
  · rintro rfl
    cases alone.always

theorem enclose {opening closing : TokenKind} (opens : Alone opening) (closes : Alone closing)
    (inside : Cuts lexemes) :
    Cuts (Canonical.sign opening :: (lexemes ++ [Canonical.sign closing])) :=
  sign opens (inside.append (parts_sign closes.always) (sign closes nil))

theorem space (opens : Opens lexemes) (more : Cuts lexemes) : Cuts (Canonical.space :: lexemes) :=
  fun ahead apart => Cut.cons (Cut.space opens.ends) (more ahead apart)

/-- A sign of negation is not the start of `!=`. -/
theorem bang (opens : Opens lexemes) (more : Cuts lexemes) :
    Cuts (Canonical.sign .bang :: lexemes) := by
  refine cons (spelled_sign rfl) (by decide) (by decide) (fun ahead _ d here => ?_) more
  obtain ⟨e, rest, first, -, other⟩ := opens
  rw [first] at here
  obtain rfl := Option.some.inj here
  exact bne_iff_ne.mpr other

/-- No sign goes on with a blank, and none starts with one. -/
theorem admits_space (always : (symbol? kind).isSome = true) : admits kind ' ' = true := by
  cases kind <;> cases always <;> rfl

/-- No sign starts with a blank. -/
theorem ends_sign (always : (symbol? kind).isSome = true) :
    Ends .whitespace (spell (Canonical.sign kind :: lexemes) ++ ahead) := by
  intro d here
  cases kind <;> cases always <;> cases here <;> rfl

/-- A sign between blanks. -/
theorem spaced (always : (symbol? kind).isSome = true) (opens : Opens lexemes)
    (more : Cuts lexemes) : Cuts (Canonical.space :: Canonical.sign kind :: Canonical.space :: lexemes) := by
  have sign : Cuts (Canonical.sign kind :: Canonical.space :: lexemes) := by
    refine cons (spelled_sign always) ?_ ?_ (fun ahead _ d here => ?_) (space opens more)
    · rintro rfl
      cases always
    · rintro rfl
      cases always
    · obtain rfl := Option.some.inj here
      exact admits_space always
  exact fun ahead apart => Cut.cons (Cut.space (ends_sign always)) (sign ahead apart)

end Cuts

end Phrases

section Expressions

theorem opens_letter {kind : TokenKind} {c : Char} {rest : List Char} (lexemes : List Lexeme)
    (starts : startsIdent c = true) : Opens (⟨kind, c :: rest⟩ :: lexemes) := by
  refine opens_cons (isSpace_of_startsIdent starts) ?_
  rintro rfl
  cases starts

theorem Identifier.opens (word : Identifier) (lexemes : List Lexeme) :
    Opens (word.lexeme :: lexemes) := opens_letter lexemes word.starts

theorem Digits.opens (digits : Digits) (lexemes : List Lexeme) :
    Opens (digits.lexeme :: lexemes) := by
  refine opens_cons (isSpace_of_isDigit digits.starts) ?_
  intro same
  have starts := digits.starts
  rw [same] at starts
  cases starts

theorem Numeral.opens (numeral : Numeral) : Opens numeral.lexemes := by
  unfold Numeral.lexemes
  cases numeral.negative with
  | true => exact opens_cons rfl (by decide)
  | false => exact numeral.whole.opens _

theorem opens_boolean (value : Bool) (lexemes : List Lexeme) :
    Opens (booleanLexeme value :: lexemes) := by
  cases value with
  | true => exact opens_cons rfl (by decide)
  | false => exact opens_cons rfl (by decide)

theorem opens_enclosed {isCompound : Bool} {inside : List Lexeme} (opens : Opens inside) :
    Opens (enclosed isCompound inside) := by
  cases isCompound with
  | true => exact opens_cons rfl (by decide)
  | false => exact opens

theorem Expr.opens : ∀ e : Expr, Opens e.lexemes
  | .text _ | .array _ | .negation _ | .null => opens_cons rfl (by decide)
  | .number numeral => numeral.opens
  | .boolean value => opens_boolean value []
  | .chain head _ _ _ => head.opens _
  | .operation left _ _ => (opens_enclosed left.opens).append
  | .ternary condition _ _ => (opens_enclosed condition.opens).append

theorem parts_fraction (fraction : Option Digits) : Parts (Numeral.fractionLexemes fraction) := by
  cases fraction with
  | none => exact parts_nil
  | some digits => exact parts_sign rfl

theorem cuts_fraction (fraction : Option Digits) : Cuts (Numeral.fractionLexemes fraction) := by
  cases fraction with
  | none => exact Cuts.nil
  | some digits => exact .sign ⟨rfl, fun _ => rfl⟩ (.number digits.spelled parts_nil .nil)

theorem Numeral.cuts (numeral : Numeral) : Cuts numeral.lexemes := by
  have digits : Cuts (numeral.whole.lexeme :: fractionLexemes numeral.fraction) :=
    .number numeral.whole.spelled (parts_fraction _) (cuts_fraction _)
  unfold lexemes
  cases numeral.negative with
  | true => exact .sign ⟨rfl, fun _ => rfl⟩ digits
  | false => exact digits

theorem cuts_enclosed {isCompound : Bool} {inside : List Lexeme} (cuts : Cuts inside) :
    Cuts (enclosed isCompound inside) := by
  cases isCompound with
  | true =>
    exact .enclose ⟨rfl, fun _ => rfl⟩ ⟨rfl, fun _ => rfl⟩ cuts
  | false => exact cuts

theorem isSome_symbol? (operator : Operator) : (symbol? operator.1).isSome = true := by
  obtain ⟨kind, binds⟩ := operator
  cases kind <;> cases binds <;> rfl

theorem parts_further (items : List Expr) : Parts (furtherLexemes items) := by
  cases items with
  | nil =>
    rw [furtherLexemes]
    exact parts_nil
  | cons e items =>
    rw [furtherLexemes]
    exact parts_sign rfl

theorem parts_links (links : List Link) : Parts (linkLexemes links) := by
  cases links with
  | nil =>
    rw [linkLexemes]
    exact parts_nil
  | cons link links =>
    cases link with
    | mk word call =>
      rw [linkLexemes]
      exact parts_sign rfl

theorem Call.parts (call : Call) {behind : List Lexeme} (parts : Parts behind) :
    Parts (call.lexemes ++ behind) := by
  cases call with
  | absent =>
    rw [lexemes]
    exact parts
  | given items =>
    rw [lexemes]
    exact parts_sign rfl

mutual

theorem Expr.cuts : ∀ e : Expr, Cuts e.lexemes
  | .text quoted => .string quoted.spelled
  | .number numeral => numeral.cuts
  | .boolean value => .word (spelled_boolean value) parts_nil .nil
  | .null => .word spelled_null parts_nil .nil
  | .array items => .enclose ⟨rfl, fun _ => rfl⟩ ⟨rfl, fun _ => rfl⟩ (cuts_arguments items)
  | .chain head _ call links => .word head.spelled (call.parts (parts_links links))
    (call.cuts.append (parts_links links) (cuts_links links))
  | .negation operand => .bang (opens_enclosed operand.opens) (cuts_enclosed operand.cuts)
  | .operation left operator right => (cuts_enclosed left.cuts).append parts_space
    (.spaced (isSome_symbol? operator) (opens_enclosed right.opens) (cuts_enclosed right.cuts))
  | .ternary condition thenBranch elseBranch => (cuts_enclosed condition.cuts).append parts_space
    (.spaced rfl (opens_enclosed thenBranch.opens).append
      ((cuts_enclosed thenBranch.cuts).append parts_space
        (.spaced rfl (opens_enclosed elseBranch.opens) (cuts_enclosed elseBranch.cuts))))

theorem cuts_arguments : ∀ items : List Expr, Cuts (argumentLexemes items)
  | [] => .nil
  | e :: more => e.cuts.append (parts_further more) (cuts_further more)

theorem cuts_further : ∀ items : List Expr, Cuts (furtherLexemes items)
  | [] => .nil
  | e :: more => .sign ⟨rfl, fun _ => rfl⟩
    (.space e.opens.append (e.cuts.append (parts_further more) (cuts_further more)))

theorem Call.cuts : ∀ call : Call, Cuts call.lexemes
  | .absent => .nil
  | .given items => .enclose ⟨rfl, fun _ => rfl⟩ ⟨rfl, fun _ => rfl⟩ (cuts_arguments items)

theorem cuts_links : ∀ links : List Link, Cuts (linkLexemes links)
  | [] => .nil
  | .mk word call :: more => .sign ⟨rfl, fun _ => rfl⟩
    (.word word.spelled (call.parts (parts_links more))
      (call.cuts.append (parts_links more) (cuts_links more)))

end

end Expressions

section Names

theorem parts_dotted (words : List Identifier) : Parts (DottedName.dotted words) := by
  cases words with
  | nil => exact parts_nil
  | cons word words => exact parts_sign rfl

theorem cuts_dotted (words : List Identifier) : Cuts (DottedName.dotted words) := by
  induction words with
  | nil => exact .nil
  | cons word words ih =>
    exact .sign ⟨rfl, fun _ => rfl⟩ (.word word.spelled (parts_dotted words) ih)

theorem DottedName.cuts (name : DottedName) : Cuts name.lexemes :=
  .word name.first.spelled (parts_dotted name.others) (cuts_dotted name.others)

theorem ComponentName.cuts (component : ComponentName) : Cuts component.lexemes :=
  component.package.cuts.append (parts_sign rfl) (.sign ⟨rfl, fun _ => rfl⟩ component.name.cuts)

theorem ComponentName.opens (component : ComponentName) : Opens component.lexemes :=
  component.package.first.opens _

end Names

section Statements

variable {blank : Bool} {ahead : List Char}

/-- No colon is ahead behind blanks, so a word before is not the sign of an include line. -/
def NoColon (ahead : List Char) : Prop :=
  (ahead.dropWhile fun c => c == ' ' || c == '\t').head? ≠ some ':'

theorem opensIncludeLine_of_noColon (word : List Char) (colon : NoColon ahead) :
    opensIncludeLine blank word ahead = false := by
  rw [opensIncludeLine, beq_eq_false_iff_ne.mpr colon, Bool.and_false]

theorem noColon_cons {d : Char} (space : d ≠ ' ') (tab : d ≠ '\t') (colon : d ≠ ':') :
    NoColon (d :: ahead) := by
  rw [NoColon, List.dropWhile_cons_of_neg (by simp [space, tab]), List.head?_cons]
  exact fun same => colon (Option.some.inj same)

theorem noColon_space (colon : NoColon ahead) : NoColon (' ' :: ahead) := colon

/-- What may stand behind a path: nothing that a word goes on with, and no colon. -/
structure EndsPath (ahead : List Char) : Prop where
  word : EndsWord ahead
  colon : NoColon ahead

theorem endsPath_newline : EndsPath ('\n' :: ahead) :=
  ⟨endsWord_cons (by decide) (by decide), noColon_cons (by decide) (by decide) (by decide)⟩

theorem endsPath_space (colon : NoColon ahead) : EndsPath (' ' :: ahead) :=
  ⟨endsWord_cons (by decide) (by decide), noColon_space colon⟩

/-- The name that a path has a prototype of is cut as it is anywhere else. -/
theorem cut_prototype {name : List Lexeme} (cuts : Cuts name) (ends : EndsPath ahead) :
    Cut blank false (constant "prototype" :: sign .leftParen :: (name ++ [sign .rightParen])) ahead := by
  have enclosed : Cuts (sign .leftParen :: (name ++ [sign .rightParen])) :=
    .enclose ⟨rfl, fun _ => rfl⟩ ⟨rfl, fun _ => rfl⟩ cuts
  have colon : NoColon ('(' :: (spell (name ++ [sign .rightParen]) ++ ahead)) :=
    noColon_cons (by decide) (by decide) (by decide)
  exact .cons (.of_spelled spelled_prototype (by decide) (by decide)
    (parts_sign rfl _ ends.word).ident fun _ => opensIncludeLine_of_noColon _ colon)
    (enclosed ahead ends.word)

/-- A step of a path is cut anywhere on a line. -/
theorem PathStep.cut (step : PathStep) (ends : EndsPath ahead) :
    Cut blank false step.lexemes ahead := by
  cases step with
  | word identifier =>
    exact .of_spelled identifier.spelled (by decide) (by decide) ends.word.ident fun _ =>
      opensIncludeLine_of_noColon _ ends.colon
  | index digits =>
    exact .of_spelled digits.spelled (by decide) (by decide) ends.word.number nofun
  | quoted name =>
    exact .of_spelled name.spelled (by decide) (by decide) (fun _ _ => rfl) nofun
  | property identifier =>
    have name : Cuts [identifier.lexeme] := .word identifier.spelled parts_nil .nil
    exact .cons (.of_spelled (spelled_sign rfl) (by decide) (by decide) (fun _ _ => rfl) nofun)
      (name ahead ends.word)
  | prototype component => exact cut_prototype component.cuts ends

theorem endsPath_steps (steps : List PathStep) (ends : EndsPath ahead) :
    EndsPath (spell (stepLexemes steps) ++ ahead) := by
  cases steps with
  | nil => exact ends
  | cons step steps =>
    exact ⟨endsWord_cons (by decide) (by decide), noColon_cons (by decide) (by decide) (by decide)⟩

theorem cut_steps (steps : List PathStep) (ends : EndsPath ahead) :
    Cut false false (stepLexemes steps) ahead := by
  induction steps with
  | nil => exact .nil false ahead
  | cons step steps ih =>
    exact .cons (.of_spelled (spelled_sign rfl) (by decide) (by decide) (fun _ _ => rfl) nofun)
      (.append (step.cut (endsPath_steps steps ends)) ih)

theorem Path.cut (path : Path) (ends : EndsPath ahead) : Cut blank false path.lexemes ahead :=
  .append (path.first.cut (endsPath_steps path.others ends)) (cut_steps path.others ends)

theorem PathStep.opens (step : PathStep) : Opens step.lexemes := by
  cases step with
  | word identifier => exact identifier.opens []
  | index digits => exact digits.opens []
  | quoted name => exact opens_cons rfl (by decide)
  | property identifier => exact opens_cons rfl (by decide)
  | prototype component => exact opens_cons rfl (by decide)

theorem Path.opens (path : Path) : Opens path.lexemes := path.first.opens.append

theorem Value.opens (value : Value) : Opens value.lexemes := by
  cases value with
  | text quoted => exact opens_cons rfl (by decide)
  | number numeral => exact numeral.opens
  | boolean value => exact opens_boolean value []
  | null => exact opens_cons rfl (by decide)
  | component name plain => exact name.opens
  | embedded block =>
    exact opens_letter [] (by rw [startsIdent, block.starts, Bool.true_or])
  | expression body => exact opens_cons rfl (by decide)

theorem Value.cuts (value : Value) : Cuts value.lexemes := by
  cases value with
  | text quoted => exact .string quoted.spelled
  | number numeral => exact numeral.cuts
  | boolean value => exact .word (spelled_boolean value) parts_nil .nil
  | null => exact .word spelled_null parts_nil .nil
  | component name plain => exact name.cuts
  | embedded block => exact .embedded block.spelled
  | expression body =>
    have closing : Cuts [space, sign .rightBrace] :=
      .space (opens_cons rfl (by decide)) (.sign ⟨rfl, fun _ => rfl⟩ .nil)
    exact .sign ⟨rfl, fun _ => rfl⟩
      (.space body.opens.append (body.cuts.append parts_space closing))

/-- What stands behind an operation: the end of the line, or the brace that opens a block. -/
def EndsHead (ahead : List Char) : Prop :=
  (∃ more, ahead = '\n' :: more) ∨ ∃ more, ahead = ' ' :: '{' :: more

theorem EndsHead.path (ends : EndsHead ahead) : EndsPath ahead := by
  rcases ends with ⟨more, rfl⟩ | ⟨more, rfl⟩
  · exact endsPath_newline
  · exact endsPath_space (noColon_cons (by decide) (by decide) (by decide))

theorem Operation.cut (operation : Operation) (ends : EndsHead ahead) :
    Cut false false operation.lexemes ahead := by
  cases operation with
  | assign value => exact Cuts.spaced rfl value.opens value.cuts ahead ends.path.word
  | copy source =>
    have sign : Cut false false [sign .lt] (spell (space :: source.lexemes) ++ ahead) :=
      .of_spelled (spelled_sign rfl) (by decide) (by decide) (fun d here => by
        obtain rfl := Option.some.inj here
        rfl) nofun
    exact .cons (.space (Cuts.ends_sign rfl)) (.cons sign (.cons (.space source.opens.ends)
      (source.cut ends.path)))
  | unset =>
    have sign : Cut false false [sign .gt] ahead := by
      refine .of_spelled (spelled_sign rfl) (by decide) (by decide) (fun d here => ?_) nofun
      rcases ends with ⟨more, rfl⟩ | ⟨more, rfl⟩ <;> cases here <;> rfl
    exact .cons (.space (Cuts.ends_sign rfl)) sign

theorem Operation.endsPath (operation : Operation) :
    EndsPath (spell operation.lexemes ++ ahead) := by
  cases operation <;>
  exact endsPath_space (noColon_cons (by decide) (by decide) (by decide))

/-- A path and the operation behind it, if there is one, are cut at the start of a line. -/
theorem cut_head (path : Path) (operation : Option Operation) (ends : EndsHead ahead) :
    Cut blank false (path.lexemes ++ operationLexemes operation) ahead := by
  cases operation with
  | none =>
    rw [operationLexemes, List.append_nil]
    exact path.cut ends.path
  | some operation => exact .append (path.cut operation.endsPath) (operation.cut ends)

theorem Statement.opens (statement : Statement) : Opens statement.lexemes := by
  cases statement with
  | includeFile path =>
    rw [lexemes]
    exact opens_cons rfl (by decide)
  | bare path operation =>
    rw [lexemes]
    exact path.opens.append
  | block path operation statements =>
    rw [lexemes]
    exact path.opens.append

theorem ends_statements {statements : List Statement} (ends : Ends .whitespace ahead) :
    Ends .whitespace (spell (statementsLexemes statements) ++ ahead) := by
  cases statements with
  | nil => rwa [statementsLexemes]
  | cons statement statements =>
    rw [statementsLexemes]
    exact statement.opens.append.ends

theorem cut_newline (ends : Ends .whitespace ahead) : Cut blank true [newline] ahead :=
  .newline ends

mutual

/-- Statements are cut from the start of a line to the start of another. -/
theorem Statement.cut : ∀ (statement : Statement) {ahead : List Char}, Ends .whitespace ahead →
    Cut true true statement.lexemes ahead
  | .includeFile path, ahead, ends => by
    obtain ⟨after, line⟩ := @Cut.includeLine (spell [newline] ++ ahead) (' ' :: path.chars)
      (List.forall_mem_cons.mpr ⟨by decide, path.line⟩) fun d here => by
        obtain rfl := Option.some.inj here
        rfl
    rw [Statement.lexemes]
    exact .cons line (cut_newline ends)
  | .bare path operation, ahead, ends => by
    rw [Statement.lexemes, ← List.append_assoc]
    exact .append (cut_head path (some operation) (.inl ⟨ahead, rfl⟩)) (cut_newline ends)
  | .block path operation statements, ahead, ends => by
    have closing : Cut true true [sign .rightBrace, newline] ahead :=
      .cons (.of_spelled (spelled_sign rfl) (by decide) (by decide) (fun _ _ => rfl) nofun)
        (cut_newline ends)
    have before : Ends .whitespace (spell [sign .rightBrace, newline] ++ ahead) := fun d here => by
      obtain rfl := Option.some.inj here
      rfl
    have opening : Cut false false [space, sign .leftBrace] (spell
        (newline :: (statementsLexemes statements ++ [sign .rightBrace, newline])) ++ ahead) :=
      .cons (.space (Cuts.ends_sign rfl))
        (.of_spelled (spelled_sign rfl) (by decide) (by decide) (fun _ _ => rfl) nofun)
    rw [Statement.lexemes, ← List.append_assoc]
    -- The statements inside start at the start of a line and so does the closing brace.
    refine .append (cut_head path operation (.inr ⟨_, rfl⟩)) (.append opening (.cons ?_
      (.append (cut_statements statements before) closing)))
    rw [spell_append, List.append_assoc]
    exact cut_newline (ends_statements before)

theorem cut_statements : ∀ (statements : List Statement) {ahead : List Char},
    Ends .whitespace ahead → Cut true true (statementsLexemes statements) ahead
  | [], ahead, _ => .nil true ahead
  | statement :: more, ahead, ends => by
    rw [statementsLexemes]
    exact .append (statement.cut (ends_statements ends)) (cut_statements more ends)

end

/-- The text of a canonical template is cut into the lexemes it was printed from. -/
theorem tokenize_print (statements : List Statement) :
    tokenize (print statements) = placeAt 0 (statementsLexemes statements) := by
  have cut := @cut_statements statements [] nofun 0
  rw [List.append_nil] at cut
  rw [tokenize, print, String.toList_ofList, cut, tokensFrom, List.append_nil]

end Statements

end FusionAtlas.Canonical
