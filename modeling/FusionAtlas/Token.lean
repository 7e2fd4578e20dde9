import FusionAtlas.Text.Basic
import FusionAtlas.Text.Range

/-!
Tokens of a template. One set serves the statement language and the expressions embedded in it;
the grammar decides which language applies.
-/

set_option autoImplicit false
set_option relaxedAutoImplicit false

namespace FusionAtlas

/-- What a token is. -/
inductive TokenKind where
  | whitespace | comment
  | ident | number | string | dsl
  | eelOpen
  | leftParen | rightParen | leftBrace | rightBrace | leftBracket | rightBracket
  | dot | comma | at
  | eq | eqEq | bangEq | lt | ltEq | gt | gtEq
  | ampAmp | pipePipe
  | plus | minus | star | slash | percent
  | bang | question | colon
  /-- A whole `include:` line, taken raw because paths may look like comments. -/
  | includeLine
  /-- Text that begins no other token. -/
  | unknown
  deriving DecidableEq, Repr, Inhabited

namespace TokenKind

/-- Blanks and comments separate tokens and mean nothing else. -/
def isTrivia : TokenKind → Bool
  | whitespace | comment => true
  | _ => false

end TokenKind

/-- A piece of the source with its kind and place. -/
structure Token where
  kind : TokenKind
  text : String
  start : Nat
  deriving DecidableEq, Repr, Inhabited

namespace Token

def stop (t : Token) : Nat := t.start + Text.byteSize t.text.toList

def range (t : Token) : ByteRange := ⟨t.start, t.stop⟩

end Token

end FusionAtlas
