import FusionAtlas.Proofs.CanonicalStatements
import FusionAtlas.Proofs.Derivations
import FusionAtlas.Proofs.OperandText
import FusionAtlas.Proofs.OperatorGrouping

/-!
Operands in a row that operators with blanks around them join, as the value of a property. However the operands
are written, the value is read without a fault, grouped as tightly as each operator binds and otherwise from the
left. Main definition: `Canonical.Row`; main statement: `Canonical.Row.parseTemplate_assignment`.
-/

set_option autoImplicit false
set_option relaxedAutoImplicit false

namespace FusionAtlas.Canonical

open FusionAtlas.Text (byteSize)
open FusionAtlas.Token.Lexer
open FusionAtlas.Template (Source Cursor Derives IsPath IsOperation IsOperator Grouping precedence? rank)

/-- The tokens of a text that mean something. -/
def meaningful (text : String) : List Token := (tokenize text).filter fun t => !t.kind.isTrivia

/-- The text of an operand: a literal, an array, a chain, a negation or an expression in parentheses, however it
is written. No blank and no comment comes first or last in it. -/
structure Operand where
  chars : List Char
  tree : Template.Expr
  derives : ∃ e : Template.Expr, e.bare = tree ∧
    Derives (.ofText (String.ofList chars)) (meaningful (String.ofList chars)) (.unary e)
  opens : ∀ t ∈ (tokenize (String.ofList chars)).head?, t.kind.isTrivia = false
  closes : ∀ t ∈ (tokenize (String.ofList chars)).getLast?, t.kind.isTrivia = false

/-- At least one blank or line end. -/
structure Gap where
  first : Char
  rest : List Char
  starts : isSpace first = true
  continues : ∀ c ∈ rest, isSpace c = true

/-- An operator between blanks, and the operand behind it. -/
structure Joined where
  before : Gap
  operator : String
  joins : IsOperator operator
  after : Gap
  operand : Operand

/-- Operands that operators join. -/
structure Row where
  first : Operand
  others : List Joined

/-- The blanks of a gap. -/
def Gap.chars (gap : Gap) : List Char := gap.first :: gap.rest

/-- The operator and the operand with their blanks. -/
def Joined.chars (joined : Joined) : List Char :=
  joined.before.chars ++ (joined.operator.toList ++ (joined.after.chars ++ joined.operand.chars))

namespace Row

/-- The row as it is written. -/
def chars (row : Row) : List Char := row.first.chars ++ row.others.flatMap Joined.chars

/-- The operands and operators as they are written. -/
def inOrder (row : Row) : Template.Expr × List (String × Template.Expr) :=
  (row.first.tree, row.others.map fun joined => (joined.operator, joined.operand.tree))

/-- The row in `${ }`, assigned to a path. -/
def assignment (row : Row) (path : Path) (lead trail : Option Gap) : String :=
  String.ofList (spell path.lexemes ++ (" = $\x7b".toList ++ ((lead.map Gap.chars).getD [] ++
    (row.chars ++ ((trail.map Gap.chars).getD [] ++ "\x7d".toList)))))

end Row

variable {source : Source} {ahead chars first second : List Char} {P Q : List Token → Prop} {kind : TokenKind}

/-- In front of what is ahead the characters are cut the same way anywhere on a line, and wherever they stand
in the text their tokens are such. -/
def Reads (source : Source) (ahead chars : List Char) (P : List Token → Prop) : Prop :=
  ∃ lexemes, spell lexemes = chars ∧ (∀ blank, ∃ after, Cut blank after lexemes ahead) ∧
    Writes source lexemes P

namespace Reads

theorem imp (reads : Reads source ahead chars P) (implies : ∀ ts, P ts → Q ts) :
    Reads source ahead chars Q := by
  obtain ⟨lexemes, spelled, cut, writes⟩ := reads
  exact ⟨lexemes, spelled, cut, writes.imp implies⟩

theorem nil (here : P []) : Reads source ahead [] P :=
  ⟨[], rfl, fun blank => ⟨blank, .nil blank ahead⟩, .nil here⟩

theorem append {mid : List Char} (front : Reads source mid first P) (behind : Reads source ahead second Q)
    (meet : second ++ ahead = mid) :
    Reads source ahead (first ++ second) fun ts => ∃ us vs, ts = us ++ vs ∧ P us ∧ Q vs := by
  subst meet
  obtain ⟨lexemes, rfl, cut, writes⟩ := front
  obtain ⟨lexemes', rfl, cut', writes'⟩ := behind
  refine ⟨lexemes ++ lexemes', spell_append _ _, fun blank => ?_, writes.append writes'⟩
  obtain ⟨mid, here⟩ := cut blank
  obtain ⟨after, there⟩ := cut' mid
  exact ⟨after, here.append there⟩

/-- Characters that are always spelled alike. -/
theorem sign (same : symbol? kind = some chars) (ends : Ends kind ahead) :
    Reads source ahead chars fun ts => ∃ t, ts = [t] ∧ t.kind = kind ∧ t.text = String.ofList chars := by
  have apart : kind ≠ .whitespace ∧ kind ≠ .includeLine ∧ kind ≠ .ident ∧ kind.isTrivia = false := by
    cases kind <;> cases same <;> exact ⟨by decide, by decide, by decide, rfl⟩
  refine ⟨[⟨kind, chars⟩], List.append_nil _, fun blank => ⟨false, ?_⟩, Writes.single apart.2.2.2⟩
  exact .of_spelled (.symbol same) apart.1 apart.2.1 ends fun ident => absurd ident apart.2.2.1

theorem gap (gap : Gap) (ends : Ends .whitespace ahead) : Reads source ahead gap.chars (· = []) := by
  refine ⟨[⟨.whitespace, gap.chars⟩], List.append_nil _, fun blank => ⟨blankAfter blank gap.chars, ?_⟩,
    fun start _ => ?_⟩
  · exact .single (next_whitespace gap.starts gap.continues ends)
  · exact tokensAt_trivia start rfl

theorem gap? (gap : Option Gap) (ends : Ends .whitespace ahead) :
    Reads source ahead ((gap.map Gap.chars).getD []) (· = []) := by
  cases gap with
  | none => exact .nil rfl
  | some found => exact .gap found ends

theorem path (path : Path) (ends : EndsPath ahead) :
    Reads source ahead (spell path.lexemes) fun ts =>
      ∃ found : Template.Path, found.bare = path.tree ∧ IsPath source ts found :=
  ⟨path.lexemes, rfl, fun _ => ⟨false, path.cut ends⟩, path.writes source⟩

/-- What is read of a whole text. -/
theorem whole {text : String} (reads : Reads (.ofText text) [] text.toList P) : P (meaningful text) := by
  obtain ⟨lexemes, spelled, cut, writes⟩ := reads
  obtain ⟨after, cut⟩ := cut true
  have tokens : tokenize text = placeAt 0 lexemes := by
    have tokens := cut 0
    rwa [spelled, List.append_nil, tokensFrom, List.append_nil] at tokens
  rw [meaningful, tokens]
  exact writes 0 ⟨[], [], (spelled ▸ (List.append_nil _).symm), rfl⟩

end Reads

section Operands

variable (operand : Operand)

theorem Operand.known :
    ∀ t ∈ tokenize (String.ofList operand.chars), t.kind ≠ .unknown ∧ t.kind ≠ .includeLine := by
  intro t member
  cases trivia : t.kind.isTrivia with
  | true =>
    generalize t.kind = kind at trivia
    cases kind <;> cases trivia <;> exact ⟨nofun, nofun⟩
  | false =>
    obtain ⟨e, -, derives⟩ := operand.derives
    have listed : t ∈ meaningful (String.ofList operand.chars) :=
      List.mem_filter.mpr ⟨member, by rw [trivia]; rfl⟩
    exact ⟨derives.sane.known t listed, derives.ne_includeLine t listed⟩

theorem Operand.endsOperand_getLast :
    ∀ t ∈ (tokenize (String.ofList operand.chars)).getLast?, endsOperand t.kind = true := by
  intro t last
  obtain ⟨e, -, derives⟩ := operand.derives
  obtain ⟨before, tokens⟩ := List.getLast?_eq_some_iff.mp last
  obtain ⟨front, final, same, ends⟩ := derives.closes
  have means : [t].filter (fun t => !t.kind.isTrivia) = [t] :=
    List.filter_cons_of_pos (by rw [operand.closes t last]; rfl)
  rw [meaningful, tokens, List.filter_append, means] at same
  obtain ⟨-, rfl⟩ := List.append_inj' same rfl |>.imp_right List.singleton_inj.mp
  exact ends

/-- Where an operand stands its tokens are those of its own text, moved. -/
theorem Operand.tokensFrom_chars (blank : Bool) (start : Nat) :
    tokensFrom blank start operand.chars = (tokenize (String.ofList operand.chars)).map (Token.moved start) := by
  have moved := Token.tokensFrom_moved true 0 start operand.chars
  rw [Nat.zero_add] at moved
  rw [tokenize, String.toList_ofList, ← moved]
  cases blank with
  | true => rfl
  | false =>
    refine tokensFrom_false fun t member => ?_
    rw [moved] at member
    obtain ⟨u, listed, rfl⟩ := List.mem_map.mp member
    exact (operand.known u (by rwa [tokenize, String.toList_ofList])).2

theorem Operand.reads (ends : EndsPath ahead) :
    Reads source ahead operand.chars fun ts =>
      ∃ e : Template.Expr, e.bare = operand.tree ∧ Derives source ts (.unary e) := by
  let tokens := tokenize (String.ofList operand.chars)
  have spelled : spell (lexemesOf tokens) = operand.chars := by
    rw [spell_lexemesOf, ← String.toList_ofList (l := operand.chars)]
    exact flatMap_tokensFrom true 0 _
  have places (start : Nat) : placeAt start (lexemesOf tokens) = tokens.map (Token.moved start) := by
    have contiguous := contiguous_tokensFrom true 0 (String.ofList operand.chars).toList
    have placed := Token.placeAt_lexemesOf contiguous start
    rwa [Nat.zero_add] at placed
  refine ⟨lexemesOf tokens, spelled, fun blank => ⟨blankAfter blank operand.chars, fun start => ?_⟩,
    fun start holds => ?_⟩
  · have own := operand.tokensFrom_chars blank start
    rw [spelled, tokensFrom_append ends, places, own]
    · rw [own]
      intro t member
      obtain ⟨u, listed, rfl⟩ := List.mem_map.mp member
      exact (operand.known u listed).1
    · rw [own, List.getLast?_map]
      intro t last
      obtain ⟨u, here, rfl⟩ := Option.map_eq_some_iff.mp (Option.mem_def.mp last)
      exact operand.endsOperand_getLast u here
  · obtain ⟨e, same, derives⟩ := operand.derives
    have tokens_eq : tokensAt start (lexemesOf tokens) =
        (meaningful (String.ofList operand.chars)).map (Token.moved start) := by
      rw [tokensAt, places, List.filter_map]
      rfl
    have inPlace : ∀ t ∈ meaningful (String.ofList operand.chars),
        t.InPlace (String.ofList operand.chars).toList :=
      fun t member => inPlace_of_mem_tokenize (List.mem_of_mem_filter member)
    have holds : source.Holds start (String.ofList operand.chars).toList := by
      rwa [String.toList_ofList, ← spelled]
    obtain ⟨e', bare, derived⟩ := derives.placed holds inPlace
    rw [tokens_eq]
    exact ⟨e', bare.trans same, derived⟩

/-- An operand starts with no blank. -/
theorem Operand.ends : Ends .whitespace (operand.chars ++ ahead) := by
  intro d here
  obtain ⟨e, -, derives⟩ := operand.derives
  have opens := operand.opens
  rw [tokenize, String.toList_ofList] at opens
  cases spelled : operand.chars with
  | nil =>
    obtain ⟨front, t, same, -⟩ := derives.closes
    rw [meaningful, tokenize, String.toList_ofList, spelled, tokensFrom, List.filter_nil] at same
    exact absurd same.symm (List.append_ne_nil_of_right_ne_nil _ (List.cons_ne_nil _ _))
  | cons c rest =>
    rw [spelled] at here opens
    obtain rfl := Option.some.inj here
    rw [tokensFrom] at opens
    have first : (next true c rest).1.isTrivia = false := opens _ rfl
    rw [admits, Bool.not_eq_true', ← Bool.not_eq_true]
    intro space
    unfold next at first
    rw [if_pos space] at first
    cases first

end Operands

section Gaps

variable {c : Char} (gap : Gap)

theorem outside_of_isSpace (space : isSpace c = true) :
    continuesIdent c = false ∧ c ≠ '`' ∧ c ≠ ':' ∧ c ≠ '=' ∧ c ≠ '/' ∧ c ≠ '*' := by
  simp only [isSpace, Bool.or_eq_true, beq_iff_eq] at space
  rcases space with (((rfl | rfl) | rfl) | rfl) | rfl <;> decide

theorem noColon_append (spaces : ∀ c ∈ chars, isSpace c = true) (colon : NoColon ahead) :
    NoColon (chars ++ ahead) := by
  induction chars with
  | nil => exact colon
  | cons c chars ih =>
    obtain ⟨first, others⟩ := List.forall_mem_cons.mp spaces
    by_cases blank : c = ' ' ∨ c = '\t'
    · rw [NoColon, List.cons_append, List.dropWhile_cons_of_pos (by simpa using blank)]
      exact ih others
    · rw [not_or] at blank
      exact noColon_cons blank.1 blank.2 (outside_of_isSpace first).2.2.1

theorem Gap.spaces : ∀ c ∈ gap.chars, isSpace c = true :=
  List.forall_mem_cons.mpr ⟨gap.starts, gap.continues⟩

theorem Gap.endsPath (colon : NoColon ahead) : EndsPath (gap.chars ++ ahead) :=
  ⟨endsWord_cons (outside_of_isSpace gap.starts).1 (outside_of_isSpace gap.starts).2.1,
    noColon_append gap.spaces colon⟩

end Gaps

section Operators

variable {operator : String} {text : List Char} {p : Nat}

theorem exists_kind_of_isOperator (joins : IsOperator operator) :
    ∃ kind, symbol? kind = some operator.toList ∧ precedence? kind = some (rank operator + 1) := by
  simp only [IsOperator, Template.loosestFirst, List.flatten_cons, List.flatten_nil, List.cons_append,
    List.nil_append, List.mem_cons, List.not_mem_nil, or_false] at joins
  rcases joins with rfl | rfl | rfl | rfl | rfl | rfl | rfl | rfl | rfl | rfl | rfl | rfl | rfl
  exacts [⟨.pipePipe, rfl, rfl⟩, ⟨.ampAmp, rfl, rfl⟩, ⟨.eqEq, rfl, rfl⟩, ⟨.bangEq, rfl, rfl⟩,
    ⟨.lt, rfl, rfl⟩, ⟨.ltEq, rfl, rfl⟩, ⟨.gt, rfl, rfl⟩, ⟨.gtEq, rfl, rfl⟩, ⟨.plus, rfl, rfl⟩,
    ⟨.minus, rfl, rfl⟩, ⟨.star, rfl, rfl⟩, ⟨.slash, rfl, rfl⟩, ⟨.percent, rfl, rfl⟩]

/-- An operator starts with no blank and no colon. -/
theorem opens_of_precedence? (same : symbol? kind = some text) (binds : precedence? kind = some p) :
    Ends .whitespace (text ++ ahead) ∧ NoColon (text ++ ahead) := by
  have first : ∃ d more, text = d :: more ∧ isSpace d = false ∧ d ≠ ' ' ∧ d ≠ '\t' ∧ d ≠ ':' := by
    cases kind <;> cases binds <;> cases same <;>
    exact ⟨_, _, rfl, rfl, by decide, by decide, by decide⟩
  obtain ⟨d, more, rfl, space, others⟩ := first
  refine ⟨fun e here => ?_, noColon_cons others.1 others.2.1 others.2.2⟩
  obtain rfl := Option.some.inj here
  rw [admits, space]
  rfl

/-- No operator goes on with a blank. -/
theorem ends_gap (gap : Gap) (binds : precedence? kind = some p) : Ends kind (gap.chars ++ ahead) := by
  intro d here
  obtain rfl := Option.some.inj here
  obtain ⟨-, -, -, equals, slash, star⟩ := outside_of_isSpace gap.starts
  cases kind <;> cases binds <;> simp [admits, equals, slash, star]

end Operators

namespace Row

/-- A row is read as operands and operators in their order. -/
theorem reads_others (others : List Joined) (ends : EndsPath ahead) : ∀ first : Operand,
    Reads source ahead (first.chars ++ others.flatMap Joined.chars) fun ts =>
      Grouping.WritesRow source ts first.tree
        (others.map fun joined => (joined.operator, joined.operand.tree)) := by
  induction others with
  | nil =>
    intro first
    rw [List.flatMap_nil, List.append_nil]
    refine (first.reads ends).imp ?_
    rintro ts ⟨e, same, derives⟩
    rw [← same]
    exact .last derives
  | cons joined others ih =>
    intro first
    obtain ⟨before, operator, joins, after, operand⟩ := joined
    obtain ⟨kind, same, binds⟩ := exists_kind_of_isOperator joins
    have opens {behind : List Char} := @opens_of_precedence? behind kind operator.toList _ same binds
    have behind := (@Reads.gap source _ after operand.ends).append (ih operand) (List.append_assoc ..)
    have joined := (Reads.sign same (ends_gap after binds)).append behind (List.append_assoc ..)
    have spaced := (Reads.gap before opens.1).append joined (List.append_assoc ..)
    have meet {front : List Char} {mid : List Char} := List.append_assoc before.chars (front ++ mid) ahead
    have row := (first.reads (before.endsPath opens.2)).append spaced
      (meet.trans (congrArg _ (List.append_assoc ..)))
    rw [List.flatMap_cons, Joined.chars]
    simp only [List.append_assoc]
    refine row.imp ?_
    rintro _ ⟨us, _, rfl, ⟨e, bare, derives⟩, _, _, rfl, rfl, _, _, rfl, ⟨t, rfl, rfl, text⟩,
      _, vs, rfl, rfl, behind⟩
    rw [String.ofList_toList] at text
    subst text
    rw [← bare]
    exact .more derives binds behind

theorem reads (row : Row) (ends : EndsPath ahead) :
    Reads source ahead row.chars fun ts => Grouping.WritesRow source ts row.inOrder.1 row.inOrder.2 :=
  reads_others row.others ends row.first

/-- The one grouping of the row by how tightly its operators bind. -/
def grouping (row : Row) : Grouping := .of row.inOrder.1 row.inOrder.2

theorem expr_grouping (row : Row) {ts : List Token}
    (written : Grouping.WritesRow source ts row.inOrder.1 row.inOrder.2) :
    ∃ e : Template.Expr, e.bare = row.grouping.expr ∧ Derives source ts (.expression e) := by
  have loosest (g : Grouping) : g.AtLeast 0 := by
    cases g with
    | operand e => trivial
    | operation left operator right => exact Nat.zero_le _
  have order : row.grouping.inOrder = row.inOrder := Grouping.inOrder_of _ _
  rw [← order] at written
  obtain ⟨e, same, derives⟩ := Grouping.derives (Grouping.grouped_of _ _) (loosest _) written
  exact ⟨e, same, .condition derives⟩

theorem endsPath_brace (trail : Option Gap) :
    EndsPath ((trail.map Gap.chars).getD [] ++ '\x7d' :: ahead) := by
  have brace : NoColon ('\x7d' :: ahead) := noColon_cons (by decide) (by decide) (by decide)
  cases trail with
  | none => exact ⟨endsWord_cons (by decide) (by decide), brace⟩
  | some gap => exact gap.endsPath brace

/-- The braces around a row enclose the expression that its one grouping makes. -/
theorem reads_braces (row : Row) (lead trail : Option Gap) :
    Reads source ahead (['$', '\x7b'] ++ ((lead.map Gap.chars).getD [] ++
      (row.chars ++ ((trail.map Gap.chars).getD [] ++ ['\x7d'])))) fun ts => ∃ value : Template.Value,
        value.bare = .expression nowhere (some (.given row.grouping.expr)) ∧
          Template.IsValue source ts value := by
  have closing := @Reads.sign source ahead ['\x7d'] .rightBrace rfl fun _ _ => rfl
  have brace : Ends .whitespace ('\x7d' :: ahead) := by
    intro d here
    obtain rfl := Option.some.inj here
    rfl
  have trailing := (Reads.gap? trail brace).append closing rfl
  have inside := (row.reads (endsPath_brace trail)).append trailing (List.append_assoc ..)
  have leading := (Reads.gap? lead row.first.ends).append inside (by
    simp only [chars, List.append_assoc]
    rfl)
  have opening {mid : List Char} := @Reads.sign source mid ['$', '\x7b'] .eelOpen rfl fun _ _ => rfl
  refine (opening.append leading rfl).imp ?_
  rintro _ ⟨_, _, rfl, ⟨opens, rfl, kind, -⟩, _, _, rfl, rfl, us, _, rfl, written, _, _, rfl, rfl,
    closes, rfl, kind', -⟩
  obtain ⟨e, same, derives⟩ := row.expr_grouping written
  refine ⟨_, ?_, .expression kind derives kind'⟩
  rw [Template.Value.bare, Option.map_some, Template.Argument.bare, same]

/-- The path, and the operation that assigns the row to it. -/
theorem reads_assignment (row : Row) (path : Path) (lead trail : Option Gap) :
    Reads source [] (row.assignment path lead trail).toList fun ts =>
      ∃ us vs, ∃ (found : Template.Path) (operation : Template.Operation), ts = us ++ vs ∧
        found.bare = path.tree ∧ IsPath source us found ∧
        operation.bare = .assign nowhere (.expression nowhere (some (.given row.grouping.expr))) ∧
        IsOperation source vs operation := by
  let blank : Gap := ⟨' ', [], rfl, nofun⟩
  have before {d : Char} {more : List Char} (solid : isSpace d = false) :
      Reads source (d :: more) blank.chars (· = []) := by
    refine .gap blank fun e here => ?_
    obtain rfl := Option.some.inj here
    rw [admits, solid]
    rfl
  have sign {more : List Char} : Reads source (' ' :: more) ['='] _ :=
    @Reads.sign _ _ _ .eq rfl fun d here => by
      obtain rfl := Option.some.inj here
      rfl
  have value := (before rfl).append (@reads_braces source [] row lead trail) rfl
  have assigned := (before rfl).append (sign.append value rfl) rfl
  rw [assignment, String.toList_ofList]
  refine ((Reads.path path (endsPath_space (noColon_cons (by decide) (by decide) (by decide)))).append
    assigned rfl).imp ?_
  rintro _ ⟨us, _, rfl, ⟨found, same, written⟩, _, _, rfl, rfl, _, _, rfl, ⟨t, rfl, kind, -⟩, _, vs,
    rfl, rfl, body, bare, written'⟩
  refine ⟨us, _, found, _, rfl, same, written, ?_, .assign kind written'⟩
  rw [Template.Operation.bare, bare]

/-- A row in `${ }` is read without a fault, as the one tree that has its operands and operators in their order
and in which no operator groups with a looser one on its left, nor with one on its right that does not bind
tighter. -/
theorem parseTemplate_assignment (row : Row) (path : Path) (lead trail : Option Gap) :
    (parseTemplate (row.assignment path lead trail)).errors = #[] ∧
      ∃ g : Grouping,
        Template.statementsBare (parseTemplate (row.assignment path lead trail)).template.statements =
          [.object nowhere path.tree
            (some (.assign nowhere (.expression nowhere (some (.given g.expr))))) none] ∧
        g.inOrder = row.inOrder ∧ g.Grouped ∧
        ∀ other : Grouping, other.inOrder = row.inOrder → other.Grouped → other = g := by
  obtain ⟨us, vs, found, operation, tokens, same, written, bare, written'⟩ :=
    (row.reads_assignment path lead trail).whole
  obtain ⟨t, more, first, -⟩ := Template.IsSegments.begins written
  have here : meaningful (row.assignment path lead trail) = us ++ (vs ++ []) := by
    rw [tokens, List.append_nil]
  have statement (c : Cursor) (here : c.rest = us ++ (vs ++ [])) :=
    Template.statement_of_bare written (.present written')
      ⟨Template.ahead_nil, fun _ _ => nofun, nofun⟩ Template.ahead_nil here
  have read : Template.StatementsYield (Template.statementList _ false { rest := meaningful _ }) _ [] :=
    Template.statementList_cons nofun (Nat.zero_le _) (statement _ here)
      (fun c none' => Template.statementList_nil (.inl rfl) none') (here.trans (by rw [first]; rfl))
  have value : Template.statementsBare _ = _ := read.value
  rw [same, bare] at value
  refine ⟨read.errors, row.grouping, value, Grouping.inOrder_of _ _, Grouping.grouped_of _ _,
    fun other order grouped => ?_⟩
  rw [Grouping.eq_of_grouped grouped, order]
  rfl

/-- A signed number, a minus and the negation of a chain. -/
theorem parseTemplate_assignment_signs : ∃ row : Row, ∃ path : Path,
    row.assignment path none none = "a = $\x7b-1 - 2 * !b\x7d" ∧
    row.inOrder = (.number nowhere "-1", [("-", .number nowhere "2"),
      ("*", .negation nowhere (.chain nowhere [.name nowhere "b"]))]) ∧
    (parseTemplate (row.assignment path none none)).errors = #[] ∧
    Template.statementsBare (parseTemplate (row.assignment path none none)).template.statements =
      [.object nowhere path.tree (some (.assign nowhere (.expression nowhere (some (.given
        (.operation nowhere (.number nowhere "-1") "-" (.operation nowhere (.number nowhere "2") "*"
          (.negation nowhere (.chain nowhere [.name nowhere "b"]))))))))) none] := by
  let blank : Gap := ⟨' ', [], rfl, nofun⟩
  have one : meaningful (String.ofList ['-', '1']) = [⟨.minus, "-", 0⟩, ⟨.number, "1", 1⟩] := by
    decide +kernel
  have two : meaningful (String.ofList ['2']) = [⟨.number, "2", 0⟩] := by decide +kernel
  have three : meaningful (String.ofList ['!', 'b']) = [⟨.bang, "!", 0⟩, ⟨.ident, "b", 1⟩] := by
    decide +kernel
  let first : Operand :=
    { chars := ['-', '1']
      tree := .number nowhere "-1"
      derives := ⟨.number ⟨0, 2⟩ "-1", rfl, one ▸ .positive (.number
        (@Template.IsNumber.whole _ (some ⟨.minus, "-", 0⟩) ⟨.number, "1", 1⟩ _ (by simp) rfl rfl))⟩
      opens := by decide +kernel
      closes := by decide +kernel }
  let second : Operand :=
    { chars := ['2']
      tree := .number nowhere "2"
      derives := ⟨.number ⟨0, 1⟩ "2", rfl, two ▸ .positive (.number
        (@Template.IsNumber.whole _ none ⟨.number, "2", 0⟩ _ (by simp) rfl rfl))⟩
      opens := by decide +kernel
      closes := by decide +kernel }
  let third : Operand :=
    { chars := ['!', 'b']
      tree := .negation nowhere (.chain nowhere [.name nowhere "b"])
      derives := ⟨.negation ⟨0, 2⟩ (.chain ⟨1, 2⟩ [.name ⟨1, 2⟩ "b"]), rfl,
        three ▸ @Derives.negation _ _ ⟨.bang, "!", 0⟩ _ rfl (.positive (@Derives.chain _ _ ⟨.ident, "b", 1⟩ _ _
          ⟨rfl, by decide, by decide⟩ (.lastLink (.name rfl)) rfl))⟩
      opens := by decide +kernel
      closes := by decide +kernel }
  let row : Row :=
    ⟨first, [⟨blank, "-", by decide, blank, second⟩, ⟨blank, "*", by decide, blank, third⟩]⟩
  let path : Path := ⟨.word ⟨'a', [], rfl, nofun⟩, []⟩
  obtain ⟨errors, g, statements, order, grouped, only⟩ := row.parseTemplate_assignment path none none
  have text : row.assignment path none none = String.ofList (['a'] ++ (" = $\x7b".toList ++
      ['-', '1', ' '] ++ "-".toList ++ [' ', '2', ' '] ++ "*".toList ++ [' ', '!', 'b'] ++ "\x7d".toList)) := by
    simp [row, path, first, second, third, blank, Row.assignment, Row.chars, Joined.chars, Gap.chars,
      Path.lexemes, stepLexemes, PathStep.lexemes, Identifier.lexeme, Identifier.chars, spell]
  refine ⟨row, path, text.trans (by decide +kernel), rfl, errors, ?_⟩
  have same := only
    (.operation (.operand first.tree) "-" (.operation (.operand second.tree) "*" (.operand third.tree)))
    rfl ⟨trivial, ⟨trivial, trivial, trivial, trivial⟩, trivial, (by decide : rank "-" + 1 ≤ rank "*")⟩
  rw [← same] at statements
  exact statements

end Row

end FusionAtlas.Canonical
