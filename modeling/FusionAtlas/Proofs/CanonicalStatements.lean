import FusionAtlas.Proofs.CanonicalDerivations
import FusionAtlas.Proofs.CanonicalTokens
import FusionAtlas.Proofs.StatementCompleteness

/-!
Reading undoes printing. A canonical template is read from its text without a fault, as the syntax
it stands for but for the places in it. Main statement: `Canonical.parseTemplate_print`.
-/

set_option autoImplicit false
set_option relaxedAutoImplicit false

namespace FusionAtlas.Canonical

open FusionAtlas.Text (byteSize takeWhile_append_of_head)
open FusionAtlas.Token.Lexer
open FusionAtlas.Template (Source Cursor Derives IsNumber IsComponent IsSegment IsSegments IsValue
  IsOperation IsOptional IsPath)

section Derivations

variable {source : Source} {lexemes front behind : List Lexeme} {kind : TokenKind}

/-- What writes the name of a component makes a step of a path with `prototype` and parentheses. -/
theorem writes_prototype {name : String} (written : Writes source lexemes fun ts =>
      ∃ first more r, ts = first :: more ∧ IsComponent source first more r name) :
    Writes source (constant "prototype" :: sign .leftParen :: (lexemes ++ [sign .rightParen])) fun ts =>
      ∃ found : Template.PathSegment, found.bare = .prototype nowhere name ∧
        IsSegment source ts found := by
  refine (Writes.cons rfl (Writes.enclose rfl rfl written)).imp ?_
  rintro _ ⟨word, _, rfl, kind, text, opening, _, closing, rfl, opens, ⟨first, more, r, rfl, written⟩,
    closes⟩
  exact ⟨_, rfl, .prototype kind text opens written closes⟩

theorem PathStep.writes (source : Source) (step : PathStep) :
    Writes source step.lexemes fun ts => ∃ found : Template.PathSegment,
      found.bare = step.tree ∧ IsSegment source ts found := by
  cases step with
  | word identifier =>
    refine (Writes.single rfl).imp ?_
    rintro _ ⟨t, rfl, kind, text⟩
    exact ⟨.plain t.range t.text, congrArg (Template.PathSegment.plain nowhere) text,
      .word (.inl kind)⟩
  | index digits =>
    refine (Writes.single rfl).imp ?_
    rintro _ ⟨t, rfl, kind, text⟩
    exact ⟨.plain t.range t.text, congrArg (Template.PathSegment.plain nowhere) text,
      .word (.inr kind)⟩
  | quoted name =>
    refine (Writes.single rfl).imp ?_
    rintro _ ⟨t, rfl, kind, text⟩
    have value := (congrArg Template.unquote text).trans (unquote_quoted name)
    exact ⟨.plain t.range (Template.unquote t.text),
      congrArg (Template.PathSegment.plain nowhere) value, .quoted kind⟩
  | property identifier =>
    intro start _
    have adjacent := (contiguous_placeAt start [sign .at, identifier.lexeme]).2.1
    exact ⟨_, rfl, @IsSegment.property source _ _ rfl rfl adjacent⟩
  | prototype component =>
    refine writes_prototype (component.writes.imp ?_)
    rintro _ ⟨first, more, r, rfl, -, -, written⟩
    exact ⟨first, more, r, rfl, written⟩

/-- Steps of a path behind another one. -/
theorem writes_steps (source : Source) (steps : List PathStep) :
    Writes source (stepLexemes steps) fun ts => ∃ found : List Template.PathSegment,
      found.map Template.PathSegment.bare = steps.map PathStep.tree ∧
      ∀ front segment, IsSegment source front segment →
        IsSegments source (front ++ ts) (segment :: found) := by
  induction steps with
  | nil =>
    refine Writes.nil ⟨[], rfl, fun front segment written => ?_⟩
    rw [List.append_nil]
    exact .last written
  | cons step steps ih =>
    refine (Writes.cons rfl ((step.writes source).append ih)).imp ?_
    rintro _ ⟨dot, _, rfl, between, -, us, vs, rfl, ⟨first, same, written⟩, found, others, more⟩
    refine ⟨first :: found, ?_, fun front segment written' => .more written' between
      (more us first written)⟩
    rw [List.map_cons, List.map_cons, same, others]

/-- What writes a step makes a path with canonical steps behind it. -/
theorem writes_path {step : Template.PathSegment} (steps : List PathStep)
    (written : Writes source lexemes fun ts => ∃ found : Template.PathSegment,
      found.bare = step ∧ IsSegment source ts found) :
    Writes source (lexemes ++ stepLexemes steps) fun ts => ∃ found : Template.Path,
      found.bare = ⟨step, steps.map PathStep.tree⟩ ∧ IsPath source ts found := by
  refine (written.append (writes_steps source steps)).imp ?_
  rintro _ ⟨us, vs, rfl, ⟨first, same, written⟩, found, others, more⟩
  refine ⟨⟨first, found⟩, ?_, more us first written⟩
  rw [Template.Path.bare, same, others]

theorem Path.writes (source : Source) (path : Path) :
    Writes source path.lexemes fun ts => ∃ found : Template.Path,
      found.bare = path.tree ∧ IsPath source ts found :=
  writes_path path.others (path.first.writes source)

theorem takeWhile_embedded (block : Embedded) :
    (block.lexeme.text.takeWhile (· != '`')) = block.first :: block.rest := by
  have letter {c : Char} (alphanumeric : Text.isAsciiAlphanumeric c = true) :
      (c != '`') = true := by
    rw [bne_iff_ne]
    rintro rfl
    cases alphanumeric
  have inside : ∀ c ∈ block.first :: block.rest, (c != '`') = true := by
    refine List.forall_mem_cons.mpr ⟨letter ?_, fun c member => letter (block.continues c member)⟩
    have starts : block.first.isAlpha = true := block.starts
    rw [Text.isAsciiAlphanumeric, starts, Bool.true_or]
  refine (takeWhile_append_of_head inside fun d here => ?_ :
    (block.first :: block.rest ++ '`' :: (block.body ++ ['`'])).takeWhile (· != '`') = _)
  obtain rfl := Option.some.inj here
  rfl

theorem Value.writes (source : Source) (value : Value) :
    Writes source value.lexemes fun ts => ∃ found : Template.Value,
      found.bare = value.tree ∧ IsValue source ts found := by
  cases value with
  | text quoted =>
    refine (Writes.single rfl).imp ?_
    rintro _ ⟨t, rfl, kind, text⟩
    have value := (congrArg Template.unquote text).trans (unquote_quoted quoted)
    exact ⟨.text t.range (Template.unquote t.text), congrArg (Template.Value.text nowhere) value,
      .text kind⟩
  | number numeral =>
    refine numeral.writes.imp ?_
    rintro ts ⟨r, written⟩
    exact ⟨_, rfl, .number written⟩
  | boolean value =>
    refine (Writes.single rfl).imp ?_
    rintro _ ⟨t, rfl, kind, text⟩
    exact ⟨_, rfl, .boolean kind (text ▸ boolean?_booleanLexeme value)⟩
  | null =>
    refine (Writes.single rfl).imp ?_
    rintro _ ⟨t, rfl, kind, text⟩
    exact ⟨_, rfl, .null kind (text ▸ isNull_constant)⟩
  | component name plain =>
    refine name.writes.imp ?_
    rintro _ ⟨first, more, r, rfl, kind, text, written⟩
    exact ⟨_, rfl, .component (Identifier.isName plain kind text) written⟩
  | embedded block =>
    refine (Writes.single rfl).imp ?_
    rintro _ ⟨t, rfl, kind, text⟩
    refine ⟨.embedded t.range (String.ofList (t.text.toList.takeWhile (· != '`'))), ?_,
      .embedded kind⟩
    have chars : t.text.toList = block.lexeme.text := by rw [text, String.toList_ofList]; rfl
    rw [chars, takeWhile_embedded]
    rfl
  | expression body =>
    have closing : Writes source [space, sign .rightBrace] fun ts =>
      ∃ t, ts = [t] ∧ t.kind = .rightBrace ∧ t.text = String.ofList (sign .rightBrace).text :=
      Writes.space (Writes.single rfl)
    refine (Writes.cons rfl (Writes.space ((body.writes source).expression.append closing))).imp ?_
    rintro _ ⟨opening, _, rfl, opens, -, us, _, rfl, ⟨e, same, derives⟩, last, rfl, closes, -⟩
    refine ⟨_, ?_, .expression opens derives closes⟩
    rw [Template.Value.bare, Option.map_some, Template.Argument.bare, same]
    rfl

/-- What writes a value makes an assignment behind the sign of one. -/
theorem writes_assign {value : Template.Value} (written : Writes source lexemes fun ts =>
      ∃ found : Template.Value, found.bare = value ∧ IsValue source ts found) :
    Writes source (space :: sign .eq :: space :: lexemes) fun ts => ∃ found : Template.Operation,
      found.bare = .assign nowhere value ∧ IsOperation source ts found := by
  refine (Writes.space (Writes.cons rfl (Writes.space written))).imp ?_
  rintro _ ⟨t, us, rfl, kind, -, found, same, written⟩
  refine ⟨_, ?_, .assign kind written⟩
  rw [Template.Operation.bare, same]

theorem Operation.writes (source : Source) (operation : Operation) :
    Writes source operation.lexemes fun ts => ∃ found : Template.Operation,
      found.bare = operation.tree ∧ IsOperation source ts found := by
  cases operation with
  | assign value => exact writes_assign (value.writes source)
  | copy path =>
    refine (Writes.space (Writes.cons rfl (Writes.space (path.writes source)))).imp ?_
    rintro _ ⟨t, us, rfl, kind, -, found, same, written⟩
    refine ⟨_, ?_, .copy kind written⟩
    rw [Template.Operation.bare, Template.CopySource.bare, same]
    rfl
  | unset =>
    refine (Writes.space (Writes.single rfl)).imp ?_
    rintro _ ⟨t, rfl, kind, -⟩
    exact ⟨_, rfl, .unset kind⟩

theorem writes_operation? (source : Source) (operation : Option Operation) :
    Writes source (operationLexemes operation) fun ts => ∃ found : Option Template.Operation,
      found.map Template.Operation.bare = operation.map Operation.tree ∧
        IsOptional source ts found := by
  cases operation with
  | none => exact Writes.nil ⟨none, rfl, .absent⟩
  | some operation =>
    refine (operation.writes source).imp ?_
    rintro ts ⟨found, same, written⟩
    exact ⟨some found, congrArg some same, .present written⟩

end Derivations

section Places

variable {source : Source} {ts us : List Token}

/-- Where a path ends, one of its tokens does. -/
theorem exists_stop_of_isSegments {segments : List Template.PathSegment}
    {last : Template.PathSegment} (written : IsSegments source ts segments) (ends : segments.getLast? = some last) :
    ∃ t ∈ ts, last.range.stop = t.stop := by
  induction written with
  | last only =>
    obtain rfl := Option.some.inj ends
    cases only with
    | word | quoted => exact ⟨_, List.mem_singleton_self _, rfl⟩
    | property => exact ⟨_, List.mem_cons_of_mem _ (List.mem_singleton_self _), rfl⟩
    | prototype => exact ⟨_, List.mem_append_right _ (List.mem_singleton_self _), rfl⟩
  | @more front behind dot segment segments first between others ih =>
    have nonempty : segments ≠ [] := by
      cases others <;> exact List.cons_ne_nil _ _
    rw [List.getLast?_cons_of_ne_nil nonempty] at ends
    obtain ⟨t, member, stop⟩ := ih ends
    exact ⟨t, List.mem_append_right _ (List.mem_cons_of_mem _ member), stop⟩

theorem exists_stop_of_isPath {path : Template.Path} (written : IsPath source ts path) :
    ∃ t ∈ ts, path.range.stop = t.stop :=
  exists_stop_of_isSegments written List.getLast?_cons

theorem exists_stop_of_isNumber {r : ByteRange} {digits : String}
    (written : IsNumber source ts r digits) : ∃ t ∈ ts, r.stop = t.stop := by
  cases written with
  | whole minus number range =>
    exact ⟨_, List.mem_append_right _ (List.mem_singleton_self _), by rw [range]⟩
  | decimal minus number point places adjacent adjacent' range =>
    exact ⟨_, List.mem_append_right _
      (List.mem_cons_of_mem _ (List.mem_cons_of_mem _ (List.mem_singleton_self _))), by rw [range]⟩

theorem exists_stop_of_isComponent {first : Token} {more : List Token} {r : ByteRange}
    {name : String} (written : IsComponent source first more r name) :
    ∃ t ∈ first :: more, r.stop = t.stop := by
  refine ⟨more.getLast?.getD first, ?_, by rw [written.range]⟩
  cases ends : more.getLast? with
  | none => exact List.mem_cons_self ..
  | some t => exact List.mem_cons_of_mem _ (List.mem_of_getLast? ends)

theorem exists_stop_of_isValue {value : Template.Value} (written : IsValue source ts value) :
    ∃ t ∈ ts, value.range.stop = t.stop := by
  cases written with
  | text | boolean | null | embedded => exact ⟨_, List.mem_singleton_self _, rfl⟩
  | number digits => exact exists_stop_of_isNumber digits
  | component ident name => exact exists_stop_of_isComponent name
  | nothing => exact ⟨_, List.mem_cons_of_mem _ (List.mem_singleton_self _), rfl⟩
  | expression => exact ⟨_, List.mem_append_right _ (List.mem_singleton_self _), rfl⟩

theorem exists_stop_of_isOperation {operation : Template.Operation}
    (written : IsOperation source ts operation) : ∃ t ∈ ts, operation.range.stop = t.stop := by
  cases written with
  | assign kind behind =>
    obtain ⟨t, member, stop⟩ := exists_stop_of_isValue behind
    exact ⟨t, List.mem_cons_of_mem _ member, stop⟩
  | copy kind behind =>
    obtain ⟨t, member, stop⟩ := exists_stop_of_isPath behind
    exact ⟨t, List.mem_cons_of_mem _ member, stop⟩
  | unset => exact ⟨_, List.mem_singleton_self _, rfl⟩

/-- No token of some lexemes goes on behind their end. -/
theorem stop_le_of_mem_placeAt {start : Nat} {lexemes : List Lexeme} {t : Token}
    (member : t ∈ placeAt start lexemes) : t.stop ≤ start + byteSize (spell lexemes) := by
  induction lexemes generalizing start with
  | nil => cases member
  | cons lexeme lexemes ih =>
    rw [spell_cons, Text.byteSize_append, ← Nat.add_assoc]
    rcases List.mem_cons.mp member with rfl | later
    · rw [Token.stop, String.toList_ofList]
      exact Nat.le_add_right _ _
    · exact ih later

theorem stop_le_of_isOptional {start : Nat} {lexemes : List Lexeme}
    {operation : Option Template.Operation}
    (written : IsOptional source (tokensAt start lexemes) operation) :
    ∀ op ∈ operation, op.range.stop ≤ start + byteSize (spell lexemes) := by
  rintro op ⟨⟩
  generalize same : tokensAt start lexemes = ts at written
  cases written with
  | present only =>
    obtain ⟨t, member, stop⟩ := exists_stop_of_isOperation only
    rw [stop]
    rw [← same] at member
    exact stop_le_of_mem_placeAt (List.mem_filter.mp member).1

end Places

section Reading

open FusionAtlas.Template (StatementYields StatementsYield EndsOperation Ahead Apart statementList)

variable {source : Source} {ts us : List Token} {c : Cursor} {start : Nat}

/-- Kinds of tokens that a statement starts with. -/
def startsStatement : TokenKind → Bool
  | .ident | .number | .string | .at | .includeLine => true
  | _ => false

/-- What stands behind a line: a statement, or the brace that closes a block. -/
def startsLine (kind : TokenKind) : Bool := startsStatement kind || kind == .rightBrace

/-- The next token starts a line, at an offset or behind it. -/
def NextLine (offset : Nat) (us : List Token) : Prop :=
  ∀ t, us.head? = some t → startsLine t.kind = true ∧ offset ≤ t.start

theorem endsOperand_of_startsLine {kind : TokenKind} (starts : startsLine kind = true) :
    Template.EndsOperand kind := by
  cases kind <;> cases starts <;> exact ⟨by decide, by decide⟩

theorem outside_of_startsLine {kind : TokenKind} (starts : startsLine kind = true) :
    kind ≠ .leftBrace ∧ kind ≠ .colon := by
  cases kind <;> cases starts <;> exact ⟨by decide, by decide⟩

namespace NextLine

variable {offset : Nat}

theorem operand (next : NextLine offset us) : Ahead us Template.EndsOperand :=
  fun t here => endsOperand_of_startsLine (next t here).1

theorem outside (next : NextLine offset us) :
    Ahead us fun kind => kind ≠ .leftBrace ∧ kind ≠ .colon :=
  fun t here => outside_of_startsLine (next t here).1

/-- The line end stands between what a line ends with and the next token. -/
theorem apart {stop : Nat} (next : NextLine offset us) (before : stop < offset) :
    Apart stop us := by
  intro t here _ same
  have behind := (next t here).2
  omega

end NextLine

/-- The first lexeme of a statement. -/
def Begins (lexemes : List Lexeme) : Prop :=
  ∃ kind text more, lexemes = ⟨kind, text⟩ :: more ∧ startsStatement kind = true

theorem Begins.append {front behind : List Lexeme} (begins : Begins front) :
    Begins (front ++ behind) := by
  obtain ⟨kind, text, more, rfl, starts⟩ := begins
  exact ⟨kind, text, more ++ behind, rfl, starts⟩

theorem PathStep.begins (step : PathStep) : Begins step.lexemes := by
  cases step <;> exact ⟨_, _, _, rfl, rfl⟩

theorem Statement.begins (statement : Statement) : Begins statement.lexemes := by
  cases statement with
  | includeFile path =>
    rw [lexemes]
    exact ⟨_, _, _, rfl, rfl⟩
  | bare path operation =>
    rw [lexemes]
    exact path.first.begins.append.append
  | block path operation statements =>
    rw [lexemes]
    exact path.first.begins.append.append

theorem isTrivia_of_startsStatement {kind : TokenKind} (starts : startsStatement kind = true) :
    kind.isTrivia = false := by
  cases kind <;> cases starts <;> rfl

/-- The tokens of a statement start where its lexemes do, and with no brace. -/
theorem Begins.tokens {lexemes : List Lexeme} (begins : Begins lexemes) (start : Nat) :
    ∃ t ts, tokensAt start lexemes = t :: ts ∧ startsStatement t.kind = true ∧ t.start = start := by
  obtain ⟨kind, text, more, rfl, starts⟩ := begins
  exact ⟨_, _, tokensAt_cons start (isTrivia_of_startsStatement starts), starts, rfl⟩

theorem Begins.nextLine {lexemes : List Lexeme} (begins : Begins lexemes) (start : Nat)
    (us : List Token) : NextLine start (tokensAt start lexemes ++ us) := by
  obtain ⟨t, ts, tokens, starts, place⟩ := begins.tokens start
  rw [tokens]
  intro u here
  obtain rfl := Option.some.inj here
  exact ⟨by rw [startsLine, starts, Bool.true_or], Nat.le_of_eq place.symm⟩

theorem nextLine_statements (statements : List Statement) {us : List Token} {offset : Nat}
    (next : statements = [] → NextLine offset us) :
    NextLine offset (tokensAt offset (statementsLexemes statements) ++ us) := by
  cases statements with
  | nil => exact next rfl
  | cons statement statements =>
    rw [statementsLexemes]
    exact (statement.begins.append : Begins (_ ++ statementsLexemes statements)).nextLine offset us

/-- The end of statements: the end of the text, or the brace that closes their block. -/
def EndsStatements (inBlock : Bool) (offset : Nat) (us : List Token) : Prop :=
  us = [] ∨ inBlock = true ∧ ∃ closing more, us = closing :: more ∧
    closing.kind = .rightBrace ∧ offset ≤ closing.start

theorem EndsStatements.nextLine {inBlock : Bool} {offset : Nat}
    (ends : EndsStatements inBlock offset us) : NextLine offset us := by
  rcases ends with rfl | ⟨-, closing, more, rfl, kind, behind⟩
  · exact nofun
  · intro t here
    obtain rfl := Option.some.inj here
    exact ⟨by rw [kind]; rfl, behind⟩

/-- Where statements end, none is read. -/
theorem EndsStatements.read {inBlock : Bool} {offset : Nat} (ends : EndsStatements inBlock offset us)
    (here : c.rest = us) : StatementsYield (statementList source inBlock c) [] us := by
  refine Template.statementList_nil ?_ here
  rcases ends with none' | ⟨inside, closing, more, same, kind, -⟩
  · exact .inl none'
  · exact .inr ⟨inside, closing, more, same, kind⟩

theorem includeLine_path (path : IncludePath) (start : Nat) :
    (Template.includeLine
      ⟨.includeLine, String.ofList (includeSign ++ ' ' :: path.chars), start⟩).bare =
      .includeFile nowhere (String.ofList path.chars) := by
  have behind : ((includeSign ++ ' ' :: path.chars).dropWhile (· != ':')).drop 1 =
      ' ' :: path.chars := rfl
  have trimmed : Text.trim (' ' :: path.chars) = path.chars :=
    (rfl : _ = Text.trim path.chars).trans path.trimmed
  rw [Template.includeLine, Template.Statement.bare, String.toList_ofList, behind, trimmed]

/-- The path of a statement and its operation, if it has one, with the places that printing gave
them. -/
theorem writes_head (path : Path) (operation : Option Operation)
    (holds : source.Holds start (spell (path.lexemes ++ operationLexemes operation))) :
    ∃ (found : Template.Path) (performed : Option Template.Operation),
      IsPath source (tokensAt start path.lexemes) found ∧
      IsOptional source
        (tokensAt (start + byteSize (spell path.lexemes)) (operationLexemes operation)) performed ∧
      found.bare = path.tree ∧
      performed.map Template.Operation.bare = operation.map Operation.tree ∧
      ∀ op ∈ performed, op.range.stop ≤
        start + byteSize (spell (path.lexemes ++ operationLexemes operation)) := by
  rw [spell_append] at holds
  obtain ⟨found, same, written⟩ := path.writes source start holds.left
  obtain ⟨performed, same', written'⟩ := writes_operation? source operation _ holds.right
  refine ⟨found, performed, written, written', same, same', ?_⟩
  rw [spell_append, Text.byteSize_append, ← Nat.add_assoc]
  exact stop_le_of_isOptional written'

/-- What stands on a line before its end or before the brace that opens a block. -/
theorem endsOperation_brace {found : Option Template.Operation} {opening : Token}
    (opens : opening.kind = .leftBrace) : EndsOperation found (opening :: us) where
  operand := Template.ahead_of_kind opens ⟨by decide, by decide⟩
  apart := fun _ _ => Template.apart_of_kind (by rw [opens]; rfl)
  absent := fun _ => Template.ahead_of_kind opens ⟨by decide, by decide, by decide⟩

theorem endsOperation_line {op : Template.Operation} {offset : Nat} (next : NextLine offset us)
    (before : op.range.stop < offset) : EndsOperation (some op) us where
  operand := next.operand
  apart := by
    rintro _ ⟨⟩
    exact next.apart before
  absent := nofun

/-- Where the braces of a block are, and what stands between them. -/
theorem tokensAt_braces (inside : List Lexeme) {offset : Nat}
    (holds : source.Holds offset (spell
      (space :: sign .leftBrace :: newline :: (inside ++ [sign .rightBrace, newline])))) :
    ∃ place opening closing, opening.kind = .leftBrace ∧ closing.kind = .rightBrace ∧
      source.Holds place (spell inside) ∧ place + byteSize (spell inside) ≤ closing.start ∧
      tokensAt offset
        (space :: sign .leftBrace :: newline :: (inside ++ [sign .rightBrace, newline])) =
          opening :: (tokensAt place inside ++ [closing]) := by
  rw [spell_cons, spell_cons, spell_cons, spell_append] at holds
  have within := holds.right.right.right.left
  generalize place_eq : offset + byteSize space.text + byteSize (sign .leftBrace).text +
    byteSize newline.text = place at within
  refine ⟨place, ⟨.leftBrace, String.ofList (sign .leftBrace).text, offset + byteSize space.text⟩,
    ⟨.rightBrace, String.ofList (sign .rightBrace).text, place + byteSize (spell inside)⟩, rfl, rfl,
    within, Nat.le_refl _, ?_⟩
  subst place_eq
  rw [space, tokensAt_trivia offset rfl, sign, tokensAt_cons _ rfl, newline, tokensAt_trivia _ rfl,
    tokensAt_append]
  rfl

/-- A line is read as the path and the operation that its tokens write, with its end behind it. -/
theorem read_line {path operation : List Lexeme} {pathTree : Template.Path}
    {operationTree : Template.Operation}
    (holds : source.Holds start (spell (path ++ operation ++ [newline])))
    (first : Writes source path fun ts => ∃ found : Template.Path,
      found.bare = pathTree ∧ IsPath source ts found)
    (second : Writes source operation fun ts => ∃ found : Template.Operation,
      found.bare = operationTree ∧ IsOperation source ts found)
    (next : NextLine (start + byteSize (spell (path ++ operation ++ [newline]))) us)
    (here : c.rest = tokensAt start (path ++ operation ++ [newline]) ++ us) :
    StatementYields (Template.statement source c)
      (some (.object nowhere pathTree (some operationTree) none)) us := by
  rw [spell_append, Text.byteSize_append, ← Nat.add_assoc] at next
  rw [spell_append, spell_append] at holds
  rw [tokensAt_append, tokensAt_append, List.append_assoc, List.append_assoc] at here
  obtain ⟨found, rfl, written⟩ := first start holds.left.left
  obtain ⟨op, rfl, written'⟩ := second _ holds.left.right
  have stop := stop_le_of_isOptional (.present written') op rfl
  rw [Nat.add_assoc, ← Text.byteSize_append, ← spell_append] at stop
  -- The line feed stands between the operation and the next statement.
  have before := Nat.lt_succ_of_le stop
  exact Template.statement_of_bare written (.present written') (endsOperation_line next before)
    next.outside here

mutual

/-- A canonical statement is read from its tokens. -/
theorem Statement.read : ∀ (statement : Statement) {start : Nat} {us : List Token} {c : Cursor},
    source.Holds start (spell statement.lexemes) →
    NextLine (start + byteSize (spell statement.lexemes)) us →
    c.rest = tokensAt start statement.lexemes ++ us →
    StatementYields (Template.statement source c) (some statement.tree) us
  | .includeFile path, start, us, c, holds, next, here => by
    rw [Statement.lexemes, tokensAt_cons start rfl] at here
    rw [Statement.tree, ← includeLine_path path start]
    exact Template.statement_of_includeLine rfl here
  | .bare path operation, start, us, c, holds, next, here => by
    have whole : (Statement.bare path operation).lexemes =
        path.lexemes ++ operation.lexemes ++ [newline] := by
      rw [Statement.lexemes, List.append_assoc]
    rw [whole] at holds next here
    exact read_line holds (path.writes source) (operation.writes source) next here
  | .block path operation statements, start, us, c, holds, next, here => by
    have whole : (Statement.block path operation statements).lexemes =
        path.lexemes ++ operationLexemes operation ++ (space :: sign .leftBrace :: newline ::
          (statementsLexemes statements ++ [sign .rightBrace, newline])) := by
      rw [Statement.lexemes, List.append_assoc]
    rw [whole, spell_append] at holds
    obtain ⟨found, performed, written, written', same, same', -⟩ :=
      writes_head path operation holds.left
    obtain ⟨place, opening, closing, opens, closes, inside, behind, tokens⟩ :=
      tokensAt_braces (statementsLexemes statements) holds.right
    rw [whole, tokensAt_append, tokensAt_append, tokens, List.append_assoc, List.append_assoc,
      List.cons_append, List.append_assoc] at here
    rw [Statement.tree, ← same, ← same']
    have ends : EndsStatements true (place + byteSize (spell (statementsLexemes statements)))
        (closing :: us) := .inr ⟨rfl, closing, us, rfl, closes, behind⟩
    refine Template.statement_of_block written written' opens (endsOperation_brace opens) closes
      (fun c here => ?_) here
    have read := read_before statements inside ends.nextLine (fun _ => ends.read) here
    rwa [List.append_nil] at read

/-- Canonical statements are read from their tokens, in front of whatever is read at the start of a
line. -/
theorem read_before : ∀ (statements : List Statement) {inBlock : Bool} {start : Nat}
    {us vs : List Token} {tree : List Template.Statement} {c : Cursor},
    source.Holds start (spell (statementsLexemes statements)) →
    NextLine (start + byteSize (spell (statementsLexemes statements))) us →
    (∀ c : Cursor, c.rest = us → StatementsYield (statementList source inBlock c) tree vs) →
    c.rest = tokensAt start (statementsLexemes statements) ++ us →
    StatementsYield (statementList source inBlock c) (statementsTree statements ++ tree) vs
  | [], inBlock, start, us, vs, tree, c, holds, next, behind, here => behind c here
  | statement :: more, inBlock, start, us, vs, tree, c, holds, next, behind, here => by
    rw [statementsLexemes, spell_append] at holds next
    rw [Text.byteSize_append, ← Nat.add_assoc] at next
    rw [statementsLexemes, tokensAt_append, List.append_assoc] at here
    have follows : NextLine (start + byteSize (spell statement.lexemes))
        (tokensAt (start + byteSize (spell statement.lexemes)) (statementsLexemes more) ++ us) := by
      refine nextLine_statements more fun none' => ?_
      subst none'
      exact next
    have first := statement.read holds.left follows here
    -- The first token tells that the block is not over and that reading takes something.
    obtain ⟨t, ts, tokens, starts, -⟩ := statement.begins.tokens start
    rw [tokens] at here
    refine Template.statementList_cons ?_ (by simp) first
      (fun c here => read_before more holds.right next behind here) here
    rintro - same
    rw [same] at starts
    cases starts

end

/-- Canonical statements are read from their tokens up to their end. -/
theorem read_statements (statements : List Statement) {inBlock : Bool} {start : Nat} {us : List Token}
    {c : Cursor} (holds : source.Holds start (spell (statementsLexemes statements)))
    (ends : EndsStatements inBlock (start + byteSize (spell (statementsLexemes statements))) us)
    (here : c.rest = tokensAt start (statementsLexemes statements) ++ us) :
    StatementsYield (statementList source inBlock c) (statementsTree statements) us := by
  have read := read_before statements holds ends.nextLine (fun _ => ends.read) here
  rwa [List.append_nil] at read

/-- A canonical template is read from its text without a fault, and what is read is the syntax that
was printed: the same statements, and the same nodes under the same numbers, but for their ranges. -/
theorem parseTemplate_print (statements : List Statement) :
    (parseTemplate (print statements)).errors = #[] ∧
      Template.statementsBare (parseTemplate (print statements)).template.statements =
        statementsTree statements ∧
      (parseTemplate (print statements)).tree.bare =
        SyntaxTree.ofTemplate ⟨statementsTree statements, 0⟩ := by
  have holds : (Source.ofText (print statements)).Holds 0 (spell (statementsLexemes statements)) :=
    ⟨[], [], String.toList_ofList.trans (List.append_nil _).symm, rfl⟩
  have tokens : (tokenize (print statements)).filter (fun t => !t.kind.isTrivia) =
      tokensAt 0 (statementsLexemes statements) := by rw [tokenize_print, tokensAt]
  have read := @read_statements _ statements false 0 []
    { rest := tokensAt 0 (statementsLexemes statements) } holds (.inl rfl) (List.append_nil _).symm
  rw [← tokens] at read
  have tree : Template.statementsBare (parseTemplate (print statements)).template.statements =
      statementsTree statements := read.value
  refine ⟨read.errors, tree, ?_⟩
  rw [Parsed.tree, SyntaxTree.bare_ofTemplate, Template.bare, tree]

/-- One line of each kind, with a block in a block. -/
example : print [
    .block ⟨.word ⟨'a', [], rfl, nofun⟩, [.quoted ⟨['b', ' '], by simp⟩]⟩ none [
      .block ⟨.index ⟨'1', [], rfl, nofun⟩, []⟩ (some .unset) [
        .includeFile ⟨['*', '/', '/'], rfl, by simp⟩]],
    .bare ⟨.property ⟨'c', [], rfl, nofun⟩, []⟩ (.assign (.expression
      (.operation (.negation .null) ⟨.ltEq, rfl⟩
        (.array [.number ⟨true, ⟨'2', [], rfl, nofun⟩, none⟩, .boolean true]))))] =
    "a.'b ' \x7b\n1 > \x7b\ninclude: *//\n\x7d\n\x7d\n@c = $\x7b (!null) <= [-2, true] \x7d\n" := by
  decide +kernel

end Reading

end FusionAtlas.Canonical
