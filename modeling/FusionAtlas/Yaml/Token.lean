import FusionAtlas.Text.Basic

/-!
Tokens of a YAML text, with its layout made explicit: an indented collection is opened and closed
by tokens of its own, and every key of a mapping is announced.
-/

set_option autoImplicit false
set_option relaxedAutoImplicit false

namespace FusionAtlas.Yaml

/-- A place in a text. -/
structure Place where
  line : Nat
  column : Nat
  /-- Bytes before it on its line. -/
  bytes : Nat
  deriving DecidableEq, Repr

namespace Place

def start : Place := ⟨0, 0, 0⟩

/-- The place behind some text on the same line. -/
def past (place : Place) (text : List Char) : Place :=
  ⟨place.line, place.column + text.length, place.bytes + Text.byteSize text⟩

def nextLine (place : Place) : Place := ⟨place.line + 1, 0, 0⟩

end Place

/-- Why a text is no YAML document. -/
inductive Fault where
  | forbiddenCharacter (c : Char)
  | unexpectedCharacter (place : Place)
  | tabInIndentation (place : Place)
  | unendedQuote (place : Place)
  | unknownEscape (place : Place)
  | malformedBlockHeader (place : Place)
  | malformedAnchor (place : Place)
  | malformedTag (place : Place)
  | malformedDirective (place : Place)
  | keyWithoutValue (place : Place)
  | entryNotAllowed (place : Place)
  | keyNotAllowed (place : Place)
  | valueNotAllowed (place : Place)
  | unsupportedVersion
  | repeatedDirective
  | unknownTagHandle
  | unexpectedToken
  | unknownAnchor (name : String)
  | moreThanOneDocument
  | tooDeep
  | tooManyRepetitions
  | duplicateKey
  | unfitTag (tag : String)
  | integerOutOfRange (text : String)
  deriving DecidableEq, Repr

/-- A token. -/
inductive Token where
  | versionDirective (major minor : Nat)
  | tagDirective (handle start : List Char)
  | documentStart
  | documentEnd
  | blockSequenceStart
  | blockMappingStart
  | blockEnd
  | flowSequenceStart
  | flowSequenceEnd
  | flowMappingStart
  | flowMappingEnd
  | blockEntry
  | flowEntry
  | key
  | value
  | aliasName (name : List Char)
  | anchor (name : List Char)
  | tag (handle suffix : List Char)
  | scalar (text : List Char) (isPlain : Bool)
  deriving DecidableEq, Repr, Inhabited

end FusionAtlas.Yaml
