import FusionAtlas.Text.Basic

/-!
All places of a text where a pattern is found, from left to right and without overlap. A pattern
looks at the text ahead and at the character before it.
-/

set_option autoImplicit false
set_option relaxedAutoImplicit false

namespace FusionAtlas.Text

/-- What a pattern found: its parts, and how many characters it covers. -/
structure Hit (α : Type) where
  value : α
  length : Nat
  deriving Repr

/-- A pattern: given the character before and the text ahead, what is found here. -/
abbrev Pattern (α : Type) := Option Char → List Char → Option (Hit α)

/-- A hit at its place, in bytes. -/
structure Located (α : Type) where
  value : α
  start : Nat
  stop : Nat
  deriving Repr

/-- The hits in a text that starts at an offset; the first `skip` characters belong to the hit
before. -/
def scanFrom {α : Type} (pattern : Pattern α) :
    Option Char → Nat → Nat → List Char → List (Located α)
  | _, _, _, [] => []
  | _, offset, skip + 1, c :: rest =>
    scanFrom pattern (some c) (offset + c.utf8Size) skip rest
  | before, offset, 0, c :: rest =>
    match pattern before (c :: rest) with
    | some hit =>
      ⟨hit.value, offset, offset + byteSize ((c :: rest).take hit.length)⟩ ::
        scanFrom pattern (some c) (offset + c.utf8Size) (hit.length - 1) rest
    | none => scanFrom pattern (some c) (offset + c.utf8Size) 0 rest

def scan {α : Type} (pattern : Pattern α) (text : List Char) : List (Located α) :=
  scanFrom pattern none 0 0 text

/-- A line starts behind this character, or at the start of the text. -/
def startsLine (before : Option Char) : Bool := before.all (· == '\n')

/-- What follows at least one blank. -/
def afterBlanks? : List Char → Option (List Char)
  | [] => none
  | c :: rest => if isBlank c then some (trimStart rest) else none

/-- The longest run of characters satisfying `p`, if it is not empty, and what follows. -/
def takeRun? (p : Char → Bool) (text : List Char) : Option (List Char × List Char) :=
  match text.takeWhile p with
  | [] => none
  | c :: run => some (c :: run, text.dropWhile p)

end FusionAtlas.Text
