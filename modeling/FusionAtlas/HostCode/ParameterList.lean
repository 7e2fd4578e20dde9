import FusionAtlas.HostCode.Declaration
import FusionAtlas.Text.Scan
import FusionAtlas.Text.Word

/-!
Parameter lists as they are written. Commas separate parameters unless they stand in brackets or
quotes; what does not read as a parameter is left out.
-/

set_option autoImplicit false
set_option relaxedAutoImplicit false

namespace FusionAtlas.ParameterList

open FusionAtlas.Text (afterBlanks? afterOpening? isBlank isWord takeRun? trim trimStart)

/-- Where a scan of the list stands: how many brackets are open, the quote it is in, and whether
that quote has just met a backslash. -/
structure Nesting where
  depth : Nat
  quote : Option Char
  escaped : Bool
  deriving DecidableEq, Repr

namespace Nesting

/-- Outside everything. -/
def outside : Nesting := ⟨0, none, false⟩

/-- A comma here separates parameters. -/
def atTop (nesting : Nesting) : Bool := nesting.quote.isNone && nesting.depth == 0

/-- The nesting behind a character. A bracket that closes nothing does not count. -/
def next (nesting : Nesting) (c : Char) : Nesting :=
  match nesting.quote with
  | some quote =>
    if nesting.escaped then { nesting with escaped := false }
    else if c = '\\' then { nesting with escaped := true }
    else if c = quote then { nesting with quote := none }
    else nesting
  | none =>
    if c = '\'' ∨ c = '"' then { nesting with quote := some c }
    else if c = '(' ∨ c = '[' then { nesting with depth := nesting.depth + 1 }
    else if c = ')' ∨ c = ']' then { nesting with depth := nesting.depth - 1 }
    else nesting

end Nesting

/-- The pieces between separating commas: the first one, and the others. -/
def piecesFrom (nesting : Nesting) : List Char → List Char × List (List Char)
  | [] => ([], [])
  | c :: rest =>
    let behind := piecesFrom (nesting.next c) rest
    if c = ',' ∧ nesting.atTop then ([], behind.1 :: behind.2) else (c :: behind.1, behind.2)

/-- All pieces of a list, also empty ones. -/
def pieces (raw : List Char) : List (List Char) :=
  let found := piecesFrom .outside raw
  found.1 :: found.2

/-- The pieces that are not blank. -/
def split (raw : List Char) : List (List Char) :=
  (pieces raw).filter fun piece => !(trim piece).isEmpty

/-- Drop attributes `#[...]` from the start of a piece. An attribute ends at the first closing
bracket. -/
def dropAttributes (piece : List Char) : List Char :=
  match piece with
  | '#' :: '[' :: rest =>
    match _found : rest.dropWhile (· != ']') with
    | _ :: behind => dropAttributes (trimStart behind)
    | [] => piece
  | _ => piece
termination_by piece.length
decreasing_by
  have length_le : (trimStart behind).length ≤ behind.length :=
    (List.dropWhile_sublist _).length_le
  have rest_le : (rest.dropWhile (· != ']')).length ≤ rest.length :=
    (List.dropWhile_sublist _).length_le
  simp only [_found, List.length_cons] at rest_le ⊢
  omega

/-- Words before a parameter that are not part of its type. -/
def modifiers : List String := ["public", "protected", "private", "readonly"]

/-- What follows a modifier and at least one blank, at the start of a text. -/
def afterModifier? (text : List Char) : Option (List Char) :=
  modifiers.findSome? fun modifier => (afterOpening? modifier.toList text).bind afterBlanks?

/-- Drop modifiers from the start, as many as there are. -/
def dropModifiers : Nat → List Char → List Char
  | 0, text => text
  | fuel + 1, text =>
    match afterModifier? text with
    | some rest => dropModifiers fuel rest
    | none => text

/-- A character of the name of a type, with its marks. -/
def isTypeChar (c : Char) : Bool := c == '?' || c == '\\' || c == '|' || isWord c

/-- Members joined by ampersands behind the first one. The text is cut into the members and the
rest. -/
def takeMembers : Nat → List Char → List Char × List Char
  | 0, text => ([], text)
  | fuel + 1, text =>
    match text with
    | '&' :: rest =>
      match takeRun? isTypeChar rest with
      | some (member, behind) =>
        let more := takeMembers fuel behind
        ('&' :: (member ++ more.1), more.2)
      | none => ([], text)
    | _ => ([], text)

/-- A type with at least one blank behind it, at the start of a text. -/
def takeType? (text : List Char) : Option (List Char × List Char) := do
  let (first, behind) ← takeRun? isTypeChar text
  let (members, behind) := takeMembers behind.length behind
  let rest ← afterBlanks? behind
  return (first ++ members, rest)

/-- The default value behind a name: nothing, or a value behind an equals sign. -/
def readDefault? (text : List Char) : Option (Option (List Char)) :=
  match text with
  | [] => some none
  | _ =>
    match trimStart text with
    | '=' :: value => if (trim value).isEmpty then none else some (some (trim value))
    | _ => none

/-- Read one parameter: modifiers, a type, marks for reference and spread, and a name behind a
dollar sign, with a default value. -/
def parseOne? (piece : List Char) : Option Parameter := do
  let text := dropModifiers piece.length (dropAttributes (trim piece))
  let (type, text) := match takeType? text with
    | some (type, rest) => (some type, rest)
    | none => (none, text)
  let text := (afterOpening? ['&'] text).getD text
  let spread := afterOpening? "...".toList text
  match trimStart (spread.getD text) with
  | '$' :: text =>
    let (name, text) ← takeRun? isWord text
    let default ← readDefault? text
    return ⟨type.map String.ofList, spread.isSome, String.ofList name, default.map String.ofList⟩
  | _ => none

def parse (raw : List Char) : List Parameter := (split raw).filterMap parseOne?

end FusionAtlas.ParameterList
