import FusionAtlas.Template.Expression

/-!
Statements of a template, each with the bytes it was read from.
-/

set_option autoImplicit false
set_option relaxedAutoImplicit false

namespace FusionAtlas.Template

/-- A step of a statement path. -/
inductive PathSegment where
  | plain (range : ByteRange) (identifier : String)
  /-- `@identifier` -/
  | property (range : ByteRange) (identifier : String)
  /-- `prototype(Vendor:Name)` -/
  | prototype (range : ByteRange) (identifier : String)
  deriving DecidableEq, Repr

namespace PathSegment

def range : PathSegment → ByteRange
  | plain r _ | property r _ | prototype r _ => r

end PathSegment

/-- A dotted statement path, which has at least one segment. -/
structure Path where
  first : PathSegment
  others : List PathSegment
  deriving DecidableEq, Repr

namespace Path

def segments (p : Path) : List PathSegment := p.first :: p.others

def last (p : Path) : PathSegment := p.others.getLast?.getD p.first

/-- From the start of the first segment to the end of the last. -/
def range (p : Path) : ByteRange := ⟨p.first.range.start, p.last.range.stop⟩

end Path

/-- The right-hand side of an assignment. -/
inductive Value where
  | text (range : ByteRange) (value : String)
  | number (range : ByteRange) (value : String)
  | boolean (range : ByteRange) (value : Bool)
  | null (range : ByteRange)
  /-- A component name such as `Neos.Fusion:Value`. -/
  | component (range : ByteRange) (name : String)
  /-- An embedded block of another language. -/
  | embedded (range : ByteRange) (identifier : String)
  /-- An expression in `$` braces, which may be empty. -/
  | expression (range : ByteRange) (body : Option Argument)
  /-- No value where one was expected. -/
  | missing (offset : Nat)

/-- What a statement copies from. -/
inductive CopySource where
  | path (path : Path)
  | missing (offset : Nat)

/-- What a statement does to its path. -/
inductive Operation where
  | assign (range : ByteRange) (value : Value)
  | copy (range : ByteRange) (source : CopySource)
  | unset (range : ByteRange)

/-- A statement. -/
inductive Statement where
  | includeFile (range : ByteRange) (path : String)
  | object (range : ByteRange) (path : Path) (operation : Option Operation)
      (block : Option (List Statement))

end FusionAtlas.Template

namespace FusionAtlas

/-- A whole template: its statements and its size in bytes. -/
structure Template where
  statements : List Template.Statement
  size : Nat

end FusionAtlas
