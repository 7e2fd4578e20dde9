import FusionAtlas.Proofs.BareSyntax
import FusionAtlas.Proofs.Lexemes
import FusionAtlas.Template.StatementReader

/-!
Templates in canonical form, how they are printed and which syntax they stand for. There is one
statement to a line, and the statements of a block stand between the lines of its braces. What a
canonical template consists of carries the proof that it may be written as it is. Main definitions:
`Canonical.print` and `Canonical.statementsTree`.
-/

set_option autoImplicit false
set_option relaxedAutoImplicit false

namespace FusionAtlas.Canonical

open FusionAtlas.Text (isAsciiLetter isAsciiAlphanumeric trim)
open FusionAtlas.Token.Lexer

section Words

/-- A letter or an underscore, and the letters, digits and underscores behind it. -/
structure Identifier where
  first : Char
  rest : List Char
  starts : startsIdent first = true
  continues : ∀ c ∈ rest, continuesIdent c = true

/-- At least one digit. -/
structure Digits where
  first : Char
  rest : List Char
  starts : first.isDigit = true
  continues : ∀ c ∈ rest, c.isDigit = true

/-- What may stand between single quotes as it is. -/
structure Quoted where
  inner : List Char
  plain : ∀ c ∈ inner, c ≠ '\'' ∧ c ≠ '\\'

/-- A whole or decimal number, with a minus sign or without. -/
structure Numeral where
  negative : Bool
  whole : Digits
  fraction : Option Digits

/-- Identifiers joined by dots. -/
structure DottedName where
  first : Identifier
  others : List Identifier

/-- Two dotted names joined by a colon. -/
structure ComponentName where
  package : DottedName
  name : DottedName

/-- A block of the language that a word of letters and digits names. -/
structure Embedded where
  first : Char
  rest : List Char
  body : List Char
  starts : isAsciiLetter first = true
  continues : ∀ c ∈ rest, isAsciiAlphanumeric c = true
  plain : ∀ c ∈ body, c ≠ '`'

/-- The path of an include line. -/
structure IncludePath where
  chars : List Char
  trimmed : trim chars = chars
  line : ∀ c ∈ chars, c ≠ '\n'

/-- The kind of a binary operator. -/
abbrev Operator := { kind : TokenKind // (Template.precedence? kind).isSome = true }

end Words

/-- A sign that is always spelled alike. -/
def sign (kind : TokenKind) : Lexeme := ⟨kind, (symbol? kind).getD []⟩

def space : Lexeme := ⟨.whitespace, [' ']⟩

def newline : Lexeme := ⟨.whitespace, ['\n']⟩

namespace Identifier

def chars (word : Identifier) : List Char := word.first :: word.rest

def text (word : Identifier) : String := String.ofList word.chars

def lexeme (word : Identifier) : Lexeme := ⟨.ident, word.chars⟩

/-- The word stands for a boolean or for nothing. -/
def isConstant (word : Identifier) : Bool :=
  (Template.boolean? word.text).isSome || Template.isNull word.text

end Identifier

namespace Digits

def chars (digits : Digits) : List Char := digits.first :: digits.rest

def text (digits : Digits) : String := String.ofList digits.chars

def lexeme (digits : Digits) : Lexeme := ⟨.number, digits.chars⟩

end Digits

namespace Quoted

def text (quoted : Quoted) : String := String.ofList quoted.inner

def lexeme (quoted : Quoted) : Lexeme := ⟨.string, '\'' :: (quoted.inner ++ ['\''])⟩

end Quoted

namespace Numeral

/-- A dot and the digits behind it, if there are any. -/
def fractionLexemes : Option Digits → List Lexeme
  | none => []
  | some digits => [sign .dot, digits.lexeme]

def lexemes (numeral : Numeral) : List Lexeme :=
  (if numeral.negative then [sign .minus] else []) ++
    numeral.whole.lexeme :: fractionLexemes numeral.fraction

def text (numeral : Numeral) : String := String.ofList (spell numeral.lexemes)

end Numeral

namespace DottedName

/-- Each identifier behind a dot. -/
def dotted : List Identifier → List Lexeme
  | [] => []
  | word :: more => sign .dot :: word.lexeme :: dotted more

def lexemes (name : DottedName) : List Lexeme := name.first.lexeme :: dotted name.others

end DottedName

namespace ComponentName

def lexemes (component : ComponentName) : List Lexeme :=
  component.package.lexemes ++ sign .colon :: component.name.lexemes

def text (component : ComponentName) : String := String.ofList (spell component.lexemes)

end ComponentName

namespace Embedded

def word (block : Embedded) : String := String.ofList (block.first :: block.rest)

def lexeme (block : Embedded) : Lexeme :=
  ⟨.dsl, block.first :: (block.rest ++ '`' :: (block.body ++ ['`']))⟩

end Embedded

section Expressions

mutual

/-- An expression. A chain starts with an identifier that stands for no constant. -/
inductive Expr where
  | text (quoted : Quoted)
  | number (numeral : Numeral)
  | boolean (value : Bool)
  | null
  | array (items : List Expr)
  | chain (head : Identifier) (plain : head.isConstant = false) (call : Call) (links : List Link)
  | negation (operand : Expr)
  | operation (left : Expr) (operator : Operator) (right : Expr)
  | ternary (condition thenBranch elseBranch : Expr)

/-- What stands behind an identifier of a chain: the arguments of a call, or nothing. -/
inductive Call where
  | absent
  | given (arguments : List Expr)

/-- An identifier behind a dot of a chain. -/
inductive Link where
  | mk (word : Identifier) (call : Call)

end

/-- An expression that is enclosed in parentheses where it is an operand. -/
def Expr.isCompound : Expr → Bool
  | .negation _ | .operation .. | .ternary .. => true
  | _ => false

/-- An operand, in parentheses if it is compound. -/
def enclosed (isCompound : Bool) (inside : List Lexeme) : List Lexeme :=
  if isCompound then sign .leftParen :: (inside ++ [sign .rightParen]) else inside

def constant (word : String) : Lexeme := ⟨.ident, word.toList⟩

def booleanLexeme (value : Bool) : Lexeme := constant (if value then "true" else "false")

mutual

def Expr.lexemes : Expr → List Lexeme
  | .text quoted => [quoted.lexeme]
  | .number numeral => numeral.lexemes
  | .boolean value => [booleanLexeme value]
  | .null => [constant "null"]
  | .array items => sign .leftBracket :: (argumentLexemes items ++ [sign .rightBracket])
  | .chain head _ call links => head.lexeme :: (call.lexemes ++ linkLexemes links)
  | .negation operand => sign .bang :: enclosed operand.isCompound operand.lexemes
  | .operation left operator right =>
    enclosed left.isCompound left.lexemes ++
      space :: sign operator.1 :: space :: enclosed right.isCompound right.lexemes
  | .ternary condition thenBranch elseBranch =>
    enclosed condition.isCompound condition.lexemes ++
      space :: sign .question :: space :: (enclosed thenBranch.isCompound thenBranch.lexemes ++
        space :: sign .colon :: space :: enclosed elseBranch.isCompound elseBranch.lexemes)

/-- Expressions with a comma between each and the next. -/
def argumentLexemes : List Expr → List Lexeme
  | [] => []
  | e :: more => e.lexemes ++ furtherLexemes more

/-- Expressions with a comma before each. -/
def furtherLexemes : List Expr → List Lexeme
  | [] => []
  | e :: more => sign .comma :: space :: (e.lexemes ++ furtherLexemes more)

def Call.lexemes : Call → List Lexeme
  | .absent => []
  | .given arguments => sign .leftParen :: (argumentLexemes arguments ++ [sign .rightParen])

/-- Links with a dot before each. -/
def linkLexemes : List Link → List Lexeme
  | [] => []
  | .mk word call :: more => sign .dot :: word.lexeme :: (call.lexemes ++ linkLexemes more)

end

mutual

/-- The expression that is written, at no place. -/
def Expr.tree : Expr → Template.Expr
  | .text quoted => .text nowhere quoted.text
  | .number numeral => .number nowhere numeral.text
  | .boolean value => .boolean nowhere value
  | .null => .null nowhere
  | .array items => .array nowhere (argumentsTree items)
  | .chain head _ call links => .chain nowhere (call.tree head :: linksTree links)
  | .negation operand => .negation nowhere operand.tree
  | .operation left operator right =>
    .operation nowhere left.tree (String.ofList (sign operator.1).text) right.tree
  | .ternary condition thenBranch elseBranch =>
    .ternary nowhere condition.tree thenBranch.tree elseBranch.tree

def argumentsTree : List Expr → List Template.Argument
  | [] => []
  | e :: more => .given e.tree :: argumentsTree more

def Call.tree (word : Identifier) : Call → Template.Segment
  | .absent => .name nowhere word.text
  | .given arguments => .call nowhere word.text (argumentsTree arguments)

def linksTree : List Link → List Template.Segment
  | [] => []
  | .mk word call :: more => call.tree word :: linksTree more

end

end Expressions

section Statements

/-- A step of a path. -/
inductive PathStep where
  | word (identifier : Identifier)
  | index (digits : Digits)
  | quoted (name : Quoted)
  | property (identifier : Identifier)
  | prototype (component : ComponentName)

structure Path where
  first : PathStep
  others : List PathStep

/-- What may be assigned. A component name starts with an identifier that stands for no constant. -/
inductive Value where
  | text (quoted : Quoted)
  | number (numeral : Numeral)
  | boolean (value : Bool)
  | null
  | component (name : ComponentName) (plain : name.package.first.isConstant = false)
  | embedded (block : Embedded)
  | expression (body : Expr)

inductive Operation where
  | assign (value : Value)
  | copy (source : Path)
  | unset

/-- A statement. One without a block has an operation. -/
inductive Statement where
  | includeFile (path : IncludePath)
  | bare (path : Path) (operation : Operation)
  | block (path : Path) (operation : Option Operation) (statements : List Statement)

def PathStep.lexemes : PathStep → List Lexeme
  | .word identifier => [identifier.lexeme]
  | .index digits => [digits.lexeme]
  | .quoted name => [name.lexeme]
  | .property identifier => [sign .at, identifier.lexeme]
  | .prototype component =>
    constant "prototype" :: sign .leftParen :: (component.lexemes ++ [sign .rightParen])

/-- Steps with a dot before each. -/
def stepLexemes : List PathStep → List Lexeme
  | [] => []
  | step :: more => sign .dot :: (step.lexemes ++ stepLexemes more)

def Path.lexemes (path : Path) : List Lexeme := path.first.lexemes ++ stepLexemes path.others

def Value.lexemes : Value → List Lexeme
  | .text quoted => [quoted.lexeme]
  | .number numeral => numeral.lexemes
  | .boolean value => [booleanLexeme value]
  | .null => [constant "null"]
  | .component name _ => name.lexemes
  | .embedded block => [block.lexeme]
  | .expression body =>
    sign .eelOpen :: space :: (body.lexemes ++ [space, sign .rightBrace])

def Operation.lexemes : Operation → List Lexeme
  | .assign value => space :: sign .eq :: space :: value.lexemes
  | .copy source => space :: sign .lt :: space :: source.lexemes
  | .unset => [space, sign .gt]

def operationLexemes : Option Operation → List Lexeme
  | none => []
  | some operation => operation.lexemes

mutual

/-- A statement with the end of its last line. -/
def Statement.lexemes : Statement → List Lexeme
  | .includeFile path => [⟨.includeLine, includeSign ++ ' ' :: path.chars⟩, newline]
  | .bare path operation => path.lexemes ++ (operation.lexemes ++ [newline])
  | .block path operation statements =>
    path.lexemes ++ (operationLexemes operation ++
      space :: sign .leftBrace :: newline ::
        (statementsLexemes statements ++ [sign .rightBrace, newline]))

def statementsLexemes : List Statement → List Lexeme
  | [] => []
  | statement :: more => statement.lexemes ++ statementsLexemes more

end

/-- The text of a template. -/
def print (statements : List Statement) : String :=
  String.ofList (spell (statementsLexemes statements))

def PathStep.tree : PathStep → Template.PathSegment
  | .word identifier => .plain nowhere identifier.text
  | .index digits => .plain nowhere digits.text
  | .quoted name => .plain nowhere name.text
  | .property identifier => .property nowhere identifier.text
  | .prototype component => .prototype nowhere component.text

def Path.tree (path : Path) : Template.Path := ⟨path.first.tree, path.others.map PathStep.tree⟩

def Value.tree : Value → Template.Value
  | .text quoted => .text nowhere quoted.text
  | .number numeral => .number nowhere numeral.text
  | .boolean value => .boolean nowhere value
  | .null => .null nowhere
  | .component name _ => .component nowhere name.text
  | .embedded block => .embedded nowhere block.word
  | .expression body => .expression nowhere (some (.given body.tree))

def Operation.tree : Operation → Template.Operation
  | .assign value => .assign nowhere value.tree
  | .copy source => .copy nowhere (.path source.tree)
  | .unset => .unset nowhere

mutual

def Statement.tree : Statement → Template.Statement
  | .includeFile path => .includeFile nowhere (String.ofList path.chars)
  | .bare path operation => .object nowhere path.tree (some operation.tree) none
  | .block path operation statements =>
    .object nowhere path.tree (operation.map Operation.tree) (some (statementsTree statements))

/-- The statements that are written, at no place. -/
def statementsTree : List Statement → List Template.Statement
  | [] => []
  | statement :: more => statement.tree :: statementsTree more

end

end Statements

end FusionAtlas.Canonical
