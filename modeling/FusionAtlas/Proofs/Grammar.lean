import FusionAtlas.Proofs.Tokens
import FusionAtlas.Template.StatementReader

/-!
The grammar of templates as derivations: which tokens an expression, a value or a statement may be
written with, and with which ranges. Trailing commas are allowed, parentheses leave nothing behind,
and the tokens of a `namespace:` line may be any. Main definitions: `Template.Derives` and
`Template.IsStatements`.
-/

set_option autoImplicit false
set_option relaxedAutoImplicit false

namespace FusionAtlas.Template

open FusionAtlas.Text (byteSize dropBytes)

section Words

variable (source : Source)

/-- Digits behind an optional minus, with an optional fraction that follows at once. -/
inductive IsNumber : List Token → ByteRange → String → Prop
  | whole {sign : Option Token} {digits : Token} {r : ByteRange}
      (minus : ∀ m ∈ sign, m.kind = .minus) (number : digits.kind = .number)
      (range : r = ⟨(sign.getD digits).start, digits.stop⟩) :
      IsNumber (sign.toList ++ [digits]) r (quote source r)
  | decimal {sign : Option Token} {digits dot fraction : Token} {r : ByteRange}
      (minus : ∀ m ∈ sign, m.kind = .minus) (number : digits.kind = .number)
      (point : dot.kind = .dot) (places : fraction.kind = .number)
      (adjacent : dot.start = digits.stop) (adjacent' : fraction.start = dot.stop)
      (range : r = ⟨(sign.getD digits).start, fraction.stop⟩) :
      IsNumber (sign.toList ++ [digits, dot, fraction]) r (quote source r)

/-- Identifiers, numbers, dots and at least one colon with nothing in between; the first is an
identifier or a number. -/
structure IsComponent (first : Token) (more : List Token) (r : ByteRange) (name : String) :
    Prop where
  start : first.kind = .ident ∨ first.kind = .number
  kinds : ∀ t ∈ more, continuesComponent t.kind = true
  adjacent : Token.Contiguous first.stop more
  colon : ∃ t ∈ more, t.kind = .colon
  range : r = ⟨first.start, (more.getLast?.getD first).stop⟩
  text : name = quote source r

end Words

/-- An identifier that stands for no constant. -/
structure IsName (t : Token) : Prop where
  kind : t.kind = .ident
  boolean : boolean? t.text = none
  null : isNull t.text = false

/-- What the grammar of expressions speaks of. Operands of `binary level` are joined by operators
that bind at least as tightly as the level. -/
inductive Phrase where
  | expression (e : Expr)
  | binary (level : Nat) (e : Expr)
  | unary (e : Expr)
  | primary (e : Expr)
  | chain (segments : List Segment)
  | link (segment : Segment)
  | arguments (items : List Argument)

/-- The tokens write the phrase. -/
inductive Derives (source : Source) : List Token → Phrase → Prop
  | condition {ts : List Token} {e : Expr} (only : Derives source ts (.binary 1 e)) :
      Derives source ts (.expression e)
  | ternary {ts us vs : List Token} {mark colon : Token} {condition thenBranch elseBranch : Expr}
      (first : Derives source ts (.binary 1 condition)) (question : mark.kind = .question)
      (second : Derives source us (.expression thenBranch)) (between : colon.kind = .colon)
      (third : Derives source vs (.expression elseBranch)) :
      Derives source (ts ++ mark :: us ++ colon :: vs)
        (.expression (.ternary ⟨condition.range.start, elseBranch.range.stop⟩ condition thenBranch
          elseBranch))
  | operand {ts : List Token} {e : Expr} {level : Nat} (only : Derives source ts (.unary e)) :
      Derives source ts (.binary level e)
  | operation {ts us : List Token} {operator : Token} {left right : Expr} {level p : Nat}
      (binds : precedence? operator.kind = some p) (tight : level ≤ p)
      (first : Derives source ts (.binary p left))
      (second : Derives source us (.binary (p + 1) right)) :
      Derives source (ts ++ operator :: us)
        (.binary level
          (.operation ⟨left.range.start, right.range.stop⟩ left operator.text right))
  | negation {ts : List Token} {bang : Token} {e : Expr} (sign : bang.kind = .bang)
      (behind : Derives source ts (.unary e)) :
      Derives source (bang :: ts) (.unary (.negation ⟨bang.start, e.range.stop⟩ e))
  | positive {ts : List Token} {e : Expr} (only : Derives source ts (.primary e)) :
      Derives source ts (.unary e)
  | text {t : Token} (string : t.kind = .string) :
      Derives source [t] (.primary (.text t.range (unquote t.text)))
  | number {ts : List Token} {r : ByteRange} {digits : String} (written : IsNumber source ts r digits) :
      Derives source ts (.primary (.number r digits))
  | boolean {t : Token} {value : Bool} (ident : t.kind = .ident)
      (constant : boolean? t.text = some value) :
      Derives source [t] (.primary (.boolean t.range value))
  | null {t : Token} (ident : t.kind = .ident) (constant : isNull t.text = true) :
      Derives source [t] (.primary (.null t.range))
  | array {ts : List Token} {opening closing : Token} {items : List Argument}
      (opens : opening.kind = .leftBracket) (inside : Derives source ts (.arguments items))
      (closes : closing.kind = .rightBracket) :
      Derives source (opening :: ts ++ [closing])
        (.primary (.array ⟨opening.start, closing.stop⟩ items))
  | parenthesised {ts : List Token} {opening closing : Token} {e : Expr}
      (opens : opening.kind = .leftParen) (inside : Derives source ts (.expression e))
      (closes : closing.kind = .rightParen) :
      Derives source (opening :: ts ++ [closing]) (.primary e)
  | chain {ts : List Token} {word : Token} {segments : List Segment} {last : Segment}
      (name : IsName word) (links : Derives source (word :: ts) (.chain segments))
      (ends : segments.getLast? = some last) :
      Derives source (word :: ts) (.primary (.chain ⟨word.start, last.range.stop⟩ segments))
  | lastLink {ts : List Token} {segment : Segment} (only : Derives source ts (.link segment)) :
      Derives source ts (.chain [segment])
  | links {ts us : List Token} {dot : Token} {segment : Segment} {segments : List Segment}
      (first : Derives source ts (.link segment)) (between : dot.kind = .dot)
      (others : Derives source us (.chain segments)) :
      Derives source (ts ++ dot :: us) (.chain (segment :: segments))
  | name {word : Token} (ident : word.kind = .ident) :
      Derives source [word] (.link (.name word.range word.text))
  | call {ts : List Token} {word opening closing : Token} {items : List Argument}
      (ident : word.kind = .ident) (opens : opening.kind = .leftParen)
      (inside : Derives source ts (.arguments items)) (closes : closing.kind = .rightParen) :
      Derives source (word :: opening :: ts ++ [closing])
        (.link (.call ⟨word.start, closing.stop⟩ word.text items))
  | noArguments : Derives source [] (.arguments [])
  | lastArgument {ts : List Token} {e : Expr} (only : Derives source ts (.expression e)) :
      Derives source ts (.arguments [.given e])
  | argument {ts us : List Token} {comma : Token} {e : Expr} {items : List Argument}
      (first : Derives source ts (.expression e)) (between : comma.kind = .comma)
      (others : Derives source us (.arguments items)) :
      Derives source (ts ++ comma :: us) (.arguments (.given e :: items))

section Statements

variable (source : Source)

/-- The tokens write the path segment. -/
inductive IsSegment : List Token → PathSegment → Prop
  | word {t : Token} (kind : t.kind = .ident ∨ t.kind = .number) :
      IsSegment [t] (.plain t.range t.text)
  | quoted {t : Token} (string : t.kind = .string) :
      IsSegment [t] (.plain t.range (unquote t.text))
  | property {mark name : Token} (sign : mark.kind = .at) (ident : name.kind = .ident)
      (adjacent : name.start = mark.stop) :
      IsSegment [mark, name] (.property ⟨mark.start, name.stop⟩ name.text)
  | prototype {word opening first closing : Token} {more : List Token} {r : ByteRange}
      {name : String} (ident : word.kind = .ident) (text : word.text = "prototype")
      (opens : opening.kind = .leftParen) (component : IsComponent source first more r name)
      (closes : closing.kind = .rightParen) :
      IsSegment (word :: opening :: first :: more ++ [closing])
        (.prototype ⟨word.start, closing.stop⟩ name)

/-- Segments joined by dots. -/
inductive IsSegments : List Token → List PathSegment → Prop
  | last {ts : List Token} {segment : PathSegment} (only : IsSegment source ts segment) :
      IsSegments ts [segment]
  | more {ts us : List Token} {dot : Token} {segment : PathSegment} {segments : List PathSegment}
      (first : IsSegment source ts segment) (between : dot.kind = .dot)
      (others : IsSegments us segments) :
      IsSegments (ts ++ dot :: us) (segment :: segments)

/-- The tokens write the path. -/
def IsPath (ts : List Token) (path : Path) : Prop := IsSegments source ts path.segments

/-- The tokens write the value. -/
inductive IsValue : List Token → Value → Prop
  | text {t : Token} (string : t.kind = .string) : IsValue [t] (.text t.range (unquote t.text))
  | number {ts : List Token} {r : ByteRange} {digits : String}
      (written : IsNumber source ts r digits) : IsValue ts (.number r digits)
  | boolean {t : Token} {value : Bool} (ident : t.kind = .ident)
      (constant : boolean? t.text = some value) : IsValue [t] (.boolean t.range value)
  | null {t : Token} (ident : t.kind = .ident) (constant : isNull t.text = true) :
      IsValue [t] (.null t.range)
  | component {word : Token} {more : List Token} {r : ByteRange} {name : String} (ident : IsName word)
      (written : IsComponent source word more r name) : IsValue (word :: more) (.component r name)
  | embedded {t : Token} (block : t.kind = .dsl) :
      IsValue [t] (.embedded t.range (String.ofList (t.text.toList.takeWhile (· != '`'))))
  | nothing {opening closing : Token} (opens : opening.kind = .eelOpen)
      (closes : closing.kind = .rightBrace) :
      IsValue [opening, closing] (.expression ⟨opening.start, closing.stop⟩ none)
  | expression {ts : List Token} {opening closing : Token} {e : Expr}
      (opens : opening.kind = .eelOpen) (inside : Derives source ts (.expression e))
      (closes : closing.kind = .rightBrace) :
      IsValue (opening :: ts ++ [closing])
        (.expression ⟨opening.start, closing.stop⟩ (some (.given e)))

/-- The bytes of a value. -/
def Value.range : Value → ByteRange
  | text r _ | number r _ | boolean r _ | null r | component r _ | embedded r _ | expression r _ => r
  | missing offset => .emptyAt offset

/-- The bytes of an operation. -/
def Operation.range : Operation → ByteRange
  | assign r _ | copy r _ | unset r => r

/-- The tokens write the operation. -/
inductive IsOperation : List Token → Operation → Prop
  | assign {ts : List Token} {sign : Token} {value : Value} (kind : sign.kind = .eq)
      (behind : IsValue source ts value) :
      IsOperation (sign :: ts) (.assign ⟨sign.start, value.range.stop⟩ value)
  | copy {ts : List Token} {sign : Token} {path : Path} (kind : sign.kind = .lt)
      (behind : IsPath source ts path) :
      IsOperation (sign :: ts) (.copy ⟨sign.start, path.range.stop⟩ (.path path))
  | unset {sign : Token} (kind : sign.kind = .gt) : IsOperation [sign] (.unset sign.range)

/-- An operation, or none where there are no tokens. -/
inductive IsOptional : List Token → Option Operation → Prop
  | absent : IsOptional [] none
  | present {ts : List Token} {operation : Operation} (only : IsOperation source ts operation) :
      IsOptional ts (some operation)

/-- Where the line of an offset ends, its line feed not included. -/
def lineEnd (offset : Nat) : Nat :=
  offset + byteSize (((dropBytes source.text offset).getD []).takeWhile (· != '\n'))

/-- The tokens from `word` to the end of the line that `word` ends on, out of all. -/
def restOfLine (all : List Token) (word : Token) : List Token :=
  all.filter fun t => word.start ≤ t.start ∧ t.start < lineEnd source word.stop

/-- The tokens `ts` write the statements, where `all` are the tokens of the template. Those that
stand on no `namespace:` line are `outside`. -/
inductive IsStatements (all : List Token) : List Token → List Token → List Statement → Prop
  | nil : IsStatements all [] [] []
  | includeFile {rest outside : List Token} {t : Token} {statements : List Statement}
      (kind : t.kind = .includeLine) (others : IsStatements all rest outside statements) :
      IsStatements all (t :: rest) (t :: outside) (includeLine t :: statements)
  | namespaceLine {line rest outside : List Token} {word colon : Token}
      {statements : List Statement} (ident : word.kind = .ident) (text : word.text = "namespace")
      (declares : colon.kind = .colon) (whole : word :: colon :: line = restOfLine source all word)
      (others : IsStatements all rest outside statements) :
      IsStatements all (word :: colon :: line ++ rest) outside statements
  | bare {ts us rest outside : List Token} {path : Path} {operation : Operation}
      {statements : List Statement} (first : IsPath source ts path)
      (second : IsOperation source us operation)
      (others : IsStatements all rest outside statements) :
      IsStatements all (ts ++ us ++ rest) (ts ++ us ++ outside)
        (.object ⟨path.range.start, operation.range.stop⟩ path (some operation) none :: statements)
  | block {ts us inner innerOutside rest outside : List Token} {opening closing : Token}
      {path : Path} {operation : Option Operation} {block statements : List Statement}
      (first : IsPath source ts path) (second : IsOptional source us operation)
      (opens : opening.kind = .leftBrace) (third : IsStatements all inner innerOutside block)
      (closes : closing.kind = .rightBrace)
      (others : IsStatements all rest outside statements) :
      IsStatements all (ts ++ us ++ (opening :: inner ++ [closing]) ++ rest)
        (ts ++ us ++ (opening :: innerOutside ++ [closing]) ++ outside)
        (.object ⟨path.range.start, closing.stop⟩ path operation (some block) :: statements)

end Statements

end FusionAtlas.Template
