import FusionAtlas.Text.Scan

/-!
Documentation comments in front of a method: free text, and a tag for what the method returns.
-/

set_option autoImplicit false
set_option relaxedAutoImplicit false

namespace FusionAtlas

open FusionAtlas.Text (afterOpening? beforeEnding? isBlank trim trimEnd trimStart)

/-- The type and the text of a return tag. -/
structure ReturnTag where
  type : List Char
  text : Option (List Char)
  deriving DecidableEq, Repr, Inhabited

/-- What a documentation comment says. -/
structure DocBlock where
  description : List Char
  returnTag : Option ReturnTag
  deriving DecidableEq, Repr, Inhabited

namespace DocBlock

/-- Says nothing. -/
def empty : DocBlock := ⟨[], none⟩

/-- A line without the stars and blanks around it. -/
def cleanLine (line : List Char) : List Char :=
  trim ((trim line).dropWhile (· == '*'))

/-- The return tag on a line, if it names a type. The type ends at the first blank. -/
def returnTag? (line : List Char) : Option ReturnTag := do
  let content := trim (← afterOpening? "@return".toList line)
  let type := content.takeWhile fun c => !isBlank c
  let text := trim (content.drop type.length)
  if type.isEmpty then none
  else some ⟨type, if text.isEmpty then none else some text⟩

/-- Lines that are not empty and carry no tag. -/
def isDescription (line : List Char) : Bool := !line.isEmpty && line.head? != some '@'

/-- What the body of a comment says. Of several return tags the last one counts. -/
def parse (body : List Char) : DocBlock :=
  let lines := (body.splitOn '\n').map cleanLine
  ⟨List.intercalate ['\n'] (lines.filter isDescription), (lines.filterMap returnTag?).getLast?⟩

/-- Words that may stand between a comment and the signature. -/
def modifiers : List String := ["final", "abstract", "static"]

/-- The text before a modifier at its end. -/
def beforeModifier? (text : List Char) : Option (List Char) :=
  (modifiers.findSome? fun modifier => beforeEnding? modifier.toList text).filter fun before =>
    before.getLast?.all isBlank

/-- Drop modifiers from the end, and the blanks before them. -/
def dropModifiers : Nat → List Char → List Char
  | 0, text => text
  | fuel + 1, text =>
    match beforeModifier? text with
    | some before => dropModifiers fuel (trimEnd before)
    | none => text

/-- The text before its last line, if that line is an attribute. -/
def beforeAttribute? (text : List Char) : Option (List Char) :=
  let line := Text.afterLast '\n' text
  if text.getLast? = some ']' ∧ (afterOpening? ['#', '['] (trimStart line)).isSome then
    some (text.take (text.length - line.length))
  else none

/-- Drop attribute lines from the end, and the blanks before them. -/
def dropAttributes : Nat → List Char → List Char
  | 0, text => text
  | fuel + 1, text =>
    match beforeAttribute? text with
    | some before => dropAttributes fuel (trimEnd before)
    | none => text

/-- What follows the last place where `mark` stands. -/
def afterLastMark? (mark : List Char) : List Char → Option (List Char)
  | [] => none
  | c :: rest => (afterLastMark? mark rest).or (afterOpening? mark (c :: rest))

/-- The comment at the end of a text that leads up to a signature. Only blanks, modifiers and
attribute lines may stand between them. -/
def before? (text : List Char) : Option DocBlock := do
  let text := dropModifiers text.length (trimEnd text)
  let text := dropAttributes text.length text
  let inside ← beforeEnding? ['*', '/'] text
  return parse (← afterLastMark? "/**".toList inside)

end DocBlock

end FusionAtlas
