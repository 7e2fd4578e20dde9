import FusionAtlas.Text.Basic
import FusionAtlas.Text.Range

/-!
Conversion between byte offsets and line/column positions. Columns count characters from the start
of the line; a line ends before its newline. On a line of ASCII only, columns are counted in bytes,
and sums stay within 32 bits.
-/

set_option autoImplicit false
set_option relaxedAutoImplicit false

namespace FusionAtlas

open FusionAtlas.Text (byteSize)

/-- A line without its newline, and the offset it starts at. -/
structure Line where
  start : Nat
  text : List Char
  deriving DecidableEq, Repr

namespace Line

/-- Offset of the end of the line, where its newline stands if it has one. -/
def stop (line : Line) : Nat := line.start + byteSize line.text

/-- The line is made of ASCII only, so that a byte is a character. -/
def isAscii (line : Line) : Bool := line.text.all fun c => c.toNat < 0x80

/-- Number of characters in the first `n` bytes of a text; zero if the cut splits a character or
lies past the end. -/
def columnOf (text : List Char) (n : Nat) : Nat :=
  ((Text.takeBytes text n).map List.length).getD 0

/-- Column of an offset from the start of the line on. -/
def column (line : Line) (offset : Nat) : Nat :=
  if line.isAscii then offset - line.start else columnOf line.text (offset - line.start)

/-- The largest number of 32 bits. -/
def maxOffset : Nat := 4294967295

/-- Offset of a column; one past the end of the line counts as its end. -/
def offset (line : Line) (column : Nat) : Nat :=
  if line.isAscii then min (min (line.start + min column maxOffset) maxOffset) line.stop
  else line.start + byteSize (line.text.take column)

end Line

/-- The lines of a text. A newline at the end starts one more, empty line. -/
structure LineIndex where
  first : Line
  others : List Line
  deriving DecidableEq, Repr

namespace LineIndex

/-- The lines of a text that starts at an offset. -/
def linesFrom (start : Nat) : List Char → Line × List Line
  | [] => (⟨start, []⟩, [])
  | c :: rest =>
    if c = '\n' then
      let below := linesFrom (start + 1) rest
      (⟨start, []⟩, below.1 :: below.2)
    else
      let here := linesFrom (start + c.utf8Size) rest
      (⟨start, c :: here.1.text⟩, here.2)

def ofChars (text : List Char) : LineIndex :=
  let lines := linesFrom 0 text
  ⟨lines.1, lines.2⟩

def ofText (text : String) : LineIndex := ofChars text.toList

def lines (index : LineIndex) : List Line := index.first :: index.others

def lineCount (index : LineIndex) : Nat := index.others.length + 1

/-- Size of the indexed text in bytes: where its last line ends. -/
def size (index : LineIndex) : Nat := (index.others.getLast?.getD index.first).stop

/-- The last of the given lines that starts at or before an offset, with its number; `line` if
there is none. -/
def lineAt (offset : Nat) (number : Nat) (line : Line) : List Line → Nat × Line
  | [] => (number, line)
  | next :: more =>
    if next.start ≤ offset then lineAt offset (number + 1) next more else (number, line)

/-- Position of a byte offset; an offset past the end counts as the end. -/
def position (index : LineIndex) (offset : Nat) : Position :=
  let offset := min offset index.size
  let found := lineAt offset 0 index.first index.others
  ⟨found.1, found.2.column offset⟩

/-- Positions of the ends of a range. -/
def span (index : LineIndex) (range : ByteRange) : Span :=
  ⟨index.position range.start, index.position range.stop⟩

/-- Byte offset of a position, if the line exists; a column past the end of the line counts as its
end. -/
def offset? (index : LineIndex) (p : Position) : Option Nat :=
  index.lines[p.line]?.map fun line => line.offset p.column

end LineIndex

end FusionAtlas
