import FusionAtlas.Text.Basic
import FusionAtlas.Text.Punycode
import FusionAtlas.Url.DomainName.Direction
import FusionAtlas.Url.DomainName.Joining
import FusionAtlas.Url.DomainName.Substitution

/-!
Domain names in all scripts, and how they are written in ASCII. A name is read label by label; a
label that is not of ASCII has a written form of its own, which starts with `xn--`.
-/

set_option autoImplicit false
set_option relaxedAutoImplicit false

namespace FusionAtlas.Url.DomainName

open FusionAtlas.Text (afterOpening? composed isMark)

/-- A part of a name between dots. -/
structure Label where
  /-- As it is shown. -/
  text : List Char
  /-- As it is written in ASCII. -/
  ascii : List Char
  deriving DecidableEq, Repr

/-- What the written form of a label that is not of ASCII starts with. -/
def codedOpening : List Char := "xn--".toList

/-- Number of characters of the longest label that is coded. -/
def maxLabelLength : Nat := 1000

/-- Number of characters of the longest code that is read. -/
def maxCodeLength : Nat := 2000

/-- The text has no other characters than names are written in. -/
def isWritten (text : List Char) : Bool :=
  text.all (fun c => written? c == some [c]) && composed text == text

/-- A label starts with no mark, and its joiners stand where they may. -/
def isShown (text : List Char) : Bool :=
  !text.head?.any isMark && joinersFit [] text

/-- Read a label of a name that is in written characters. A coded label must be the code of a label
that is written so itself. -/
def Label.read? (label : List Char) : Option Label :=
  match afterOpening? codedOpening label with
  | some code =>
    if !label.all Text.Punycode.isBasic || label.getLast? == some '-' ||
        maxCodeLength < code.length then none
    else do
      let text ← Text.Punycode.decode? code
      if isWritten text && isShown text then some ⟨text, label⟩ else none
  | none =>
    if label.all Text.Punycode.isBasic then some ⟨label, label⟩
    else if isShown label && label.length ≤ maxLabelLength then
      some ⟨label, codedOpening ++ Text.Punycode.encode label⟩
    else none

/-- The labels keep their directions, if one of them is written from right to left. -/
def keepDirections (labels : List Label) : Bool :=
  !labels.any (fun label => label.text.any fun c => isFromRight (direction c)) ||
    labels.all fun label => keepsDirection label.text

/-- A name as it is written in ASCII. -/
def ascii? (name : List Char) : Option (List Char) := do
  let written ← name.mapM written?
  let labels ← ((composed written.flatten).splitOn '.').mapM Label.read?
  if keepDirections labels then some (['.'].intercalate (labels.map Label.ascii)) else none

end FusionAtlas.Url.DomainName
