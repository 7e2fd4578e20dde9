import FusionAtlas.Text.Range

/-!
Expressions embedded in a template, each with the bytes it was read from. Pieces that were read and
then given up on stay in the tree where they were found, so that nothing read is lost.
-/

set_option autoImplicit false
set_option relaxedAutoImplicit false

namespace FusionAtlas.Template

mutual

/-- An expression. -/
inductive Expr where
  /-- A string literal, without its quotes. -/
  | text (range : ByteRange) (value : String)
  | number (range : ByteRange) (value : String)
  | boolean (range : ByteRange) (value : Bool)
  | null (range : ByteRange)
  | array (range : ByteRange) (items : List Argument)
  /-- An identifier chain such as `I18n.translate('id')`. -/
  | chain (range : ByteRange) (segments : List Segment)
  | negation (range : ByteRange) (operand : Expr)
  | operation (range : ByteRange) (left : Expr) (operator : String) (right : Expr)
  | ternary (range : ByteRange) (condition thenBranch elseBranch : Expr)
  /-- An expression followed by pieces that belong to nothing. -/
  | trailed (value : Expr) (abandoned : List Expr)

/-- A place where an expression was expected. -/
inductive Argument where
  | given (value : Expr)
  /-- No expression could be read; the pieces found on the way belong to nothing. -/
  | broken (abandoned : List Expr)

/-- A link of an identifier chain. -/
inductive Segment where
  | name (range : ByteRange) (value : String)
  | call (range : ByteRange) (value : String) (arguments : List Argument)

end

/-- What reading an expression gives: the expression, or the pieces that were given up. -/
abbrev Attempt := Except (List Expr) Expr

namespace Expr

/-- The bytes of an expression, without abandoned pieces behind it. -/
def range : Expr → ByteRange
  | text r _ | number r _ | boolean r _ | null r | array r _ | chain r _ | negation r _
  | operation r _ _ _ | ternary r _ _ _ => r
  | trailed value _ => value.range

end Expr

namespace Argument

/-- Keep an attempt whatever came of it. -/
def ofAttempt : Attempt → Argument
  | .ok value => given value
  | .error pieces => broken pieces

end Argument

namespace Segment

/-- The bytes of a link, a call's arguments included. -/
def range : Segment → ByteRange
  | name r _ | call r _ _ => r

def value : Segment → String
  | name _ v | call _ v _ => v

end Segment

end FusionAtlas.Template
