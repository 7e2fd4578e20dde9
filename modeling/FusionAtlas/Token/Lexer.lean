import FusionAtlas.Token

/-!
Cutting a template into tokens. Every character starts some token, so the tokens of a text laid
end to end are that text.
-/

set_option autoImplicit false
set_option relaxedAutoImplicit false

namespace FusionAtlas.Token.Lexer

open FusionAtlas.Text (byteSize isBlank isAsciiLetter isAsciiAlphanumeric afterOpening?)

def isSpace (c : Char) : Bool :=
  c == ' ' || c == '\t' || c == '\r' || c == '\n' || c == '\x0c'

/-- A character an identifier may start with. -/
def startsIdent (c : Char) : Bool := isAsciiLetter c || c == '_'

/-- A character an identifier may go on with. -/
def continuesIdent (c : Char) : Bool := isAsciiAlphanumeric c || c == '_'

/-- Number of characters up to the end of the line. -/
def lineLength (text : List Char) : Nat := (text.takeWhile (· != '\n')).length

/-- Number of characters through the end of a block comment, or all if it is never closed. -/
def blockCommentLength : List Char → Nat
  | [] => 0
  | '*' :: '/' :: _ => 2
  | _ :: rest => blockCommentLength rest + 1

/-- Number of characters behind an opening quote that belong to the string, and whether it is
closed. A backslash takes the next character with it, but never the end of a line. -/
def quotedLength (quote : Char) : List Char → Nat × Bool
  | [] => (0, false)
  | '\\' :: [] => (0, false)
  | '\\' :: c :: rest =>
    if c = '\n' then (0, false)
    else ((quotedLength quote rest).1 + 2, (quotedLength quote rest).2)
  | c :: rest =>
    if c = quote then (1, true)
    else ((quotedLength quote rest).1 + 1, (quotedLength quote rest).2)

/-- An identifier `include` is an include line when nothing but blanks precedes it on its line
and a colon follows. -/
def opensIncludeLine (lineIsBlank : Bool) (word : List Char) (rest : List Char) : Bool :=
  lineIsBlank && word == "include".toList &&
    (rest.dropWhile fun c => c == ' ' || c == '\t').head? == some ':'

/-- The token that starts with the letter or underscore `c`: an identifier, an include line, or a
word of letters and digits whose backtick opens an embedded block. -/
def wordToken (lineIsBlank : Bool) (c : Char) (rest : List Char) : TokenKind × Nat :=
  let tail := rest.takeWhile continuesIdent
  let behind := rest.drop tail.length
  match behind with
  | '`' :: body =>
    if c != '_' && tail.all isAsciiAlphanumeric then
      let inside := body.takeWhile (· != '`')
      if inside.length < body.length then (.dsl, tail.length + inside.length + 2)
      else (.unknown, rest.length)
    else (.ident, tail.length)
  | _ =>
    if opensIncludeLine lineIsBlank (c :: tail) behind then
      (.includeLine, tail.length + lineLength behind)
    else (.ident, tail.length)

/-- Kind of the token that starts with `c`, and how many characters of `rest` belong to it. The
longest token wins. -/
def next (lineIsBlank : Bool) (c : Char) (rest : List Char) : TokenKind × Nat :=
  if isSpace c then (.whitespace, (rest.takeWhile isSpace).length)
  else if startsIdent c then wordToken lineIsBlank c rest
  else if c.isDigit then (.number, (rest.takeWhile Char.isDigit).length)
  else if c = '\'' ∨ c = '"' then
    (if (quotedLength c rest).2 then .string else .unknown, (quotedLength c rest).1)
  else
    match c, rest with
    | '/', '/' :: more => (.comment, lineLength more + 1)
    | '/', '*' :: more => (.comment, blockCommentLength more + 1)
    | '#', more => (.comment, lineLength more)
    | '$', '{' :: _ => (.eelOpen, 1)
    | '=', '=' :: _ => (.eqEq, 1)
    | '!', '=' :: _ => (.bangEq, 1)
    | '<', '=' :: _ => (.ltEq, 1)
    | '>', '=' :: _ => (.gtEq, 1)
    | '&', '&' :: _ => (.ampAmp, 1)
    | '|', '|' :: _ => (.pipePipe, 1)
    | '(', _ => (.leftParen, 0)
    | ')', _ => (.rightParen, 0)
    | '{', _ => (.leftBrace, 0)
    | '}', _ => (.rightBrace, 0)
    | '[', _ => (.leftBracket, 0)
    | ']', _ => (.rightBracket, 0)
    | '.', _ => (.dot, 0)
    | ',', _ => (.comma, 0)
    | '@', _ => (.at, 0)
    | '=', _ => (.eq, 0)
    | '<', _ => (.lt, 0)
    | '>', _ => (.gt, 0)
    | '+', _ => (.plus, 0)
    | '-', _ => (.minus, 0)
    | '*', _ => (.star, 0)
    | '/', _ => (.slash, 0)
    | '%', _ => (.percent, 0)
    | '!', _ => (.bang, 0)
    | '?', _ => (.question, 0)
    | ':', _ => (.colon, 0)
    | _, _ => (.unknown, 0)

/-- Whether the current line holds only blanks so far, after one more piece of text. -/
def blankAfter (lineIsBlank : Bool) (piece : List Char) : Bool :=
  piece.foldl (fun blank c => c == '\n' || (blank && isBlank c)) lineIsBlank

/-- The tokens of a text that begins at offset `start`. -/
def tokensFrom (lineIsBlank : Bool) (start : Nat) : List Char → List Token
  | [] => []
  | c :: rest =>
    let found := next lineIsBlank c rest
    let piece := c :: rest.take found.2
    ⟨found.1, String.ofList piece, start⟩ ::
      tokensFrom (blankAfter lineIsBlank piece) (start + byteSize piece) (rest.drop found.2)
termination_by text => text.length
decreasing_by simp only [List.length_drop, List.length_cons]; omega

end FusionAtlas.Token.Lexer

namespace FusionAtlas

/-- All tokens of a text, blanks and comments included. -/
def tokenize (text : String) : List Token := Token.Lexer.tokensFrom true 0 text.toList

end FusionAtlas
