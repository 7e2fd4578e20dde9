/-!
Places in a text: byte ranges, and line/column positions for an editor.
-/

set_option autoImplicit false
set_option relaxedAutoImplicit false

namespace FusionAtlas

/-- The bytes from `start` up to, not including, `stop`. -/
structure ByteRange where
  start : Nat
  stop : Nat
  deriving DecidableEq, Repr, Inhabited

namespace ByteRange

def emptyAt (offset : Nat) : ByteRange := ⟨offset, offset⟩

def length (r : ByteRange) : Nat := r.stop - r.start

/-- An offset touches a range also right behind its last byte, where a cursor still points at
it. -/
def touches (r : ByteRange) (offset : Nat) : Bool := r.start ≤ offset && offset ≤ r.stop

/-- The nearest range inside a text of the given size. -/
def clamp (r : ByteRange) (size : Nat) : ByteRange :=
  let start := min r.start size
  ⟨start, max start (min r.stop size)⟩

end ByteRange

/-- A place in a text, both numbers counted from zero. -/
structure Position where
  line : Nat
  column : Nat
  deriving DecidableEq, Repr, Inhabited

namespace Position

/-- Reading order: lines first, then columns. -/
def le (a b : Position) : Bool := a.line < b.line || (a.line == b.line && a.column ≤ b.column)

/-- The place some columns further on the same line. -/
def right (p : Position) (columns : Nat) : Position := ⟨p.line, p.column + columns⟩

end Position

/-- A range given by the positions of its ends. -/
structure Span where
  start : Position
  stop : Position
  deriving DecidableEq, Repr, Inhabited

namespace Span

/-- A position lies in a span also at its very end. -/
def contains (s : Span) (p : Position) : Bool := s.start.le p && p.le s.stop

end Span

end FusionAtlas
