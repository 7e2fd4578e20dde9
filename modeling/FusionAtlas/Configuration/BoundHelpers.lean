import FusionAtlas.Configuration
import FusionAtlas.HostCode.ClassName

/-!
The helpers that expressions may name, read from the settings: identifiers such as `I18n` or
`Neos.Node`, each bound to a class.
-/

set_option autoImplicit false
set_option relaxedAutoImplicit false

namespace FusionAtlas

/-- What an identifier is bound to. Only a class can be followed. -/
inductive HelperBinding where
  | className (fqcn : String)
  | staticCall (text : String)
  | other
  deriving DecidableEq, Repr, Inhabited

namespace HelperBinding

/-- The binding a text stands for: with a double colon a static call, else the name of a class with
or without leading backslashes. -/
def ofText (text : String) : HelperBinding :=
  let chars := text.toList
  if (Text.splitFirst? [':', ':'] chars).isSome then .staticCall text
  else .className (String.ofList (ClassName.dropLeading (Text.trim chars)))

def ofValue (value : Yaml.Value) : HelperBinding :=
  match value.asString? with
  | some text => ofText text
  | none => .other

end HelperBinding

/-- The bound identifiers, each once, and the most dotted parts any of them has. -/
structure BoundHelpers where
  bindings : List (String × HelperBinding)
  maxParts : Nat
  deriving Repr, Inhabited

namespace BoundHelpers

def empty : BoundHelpers := ⟨[], 0⟩

/-- Number of dotted parts of an identifier. -/
def partCount (identifier : String) : Nat := identifier.toList.count '.' + 1

/-- Bind an identifier; an earlier binding is replaced. -/
def insert (helpers : BoundHelpers) (identifier : String) (binding : HelperBinding) :
    BoundHelpers :=
  ⟨helpers.bindings.filter (fun entry => entry.1 ≠ identifier) ++ [(identifier, binding)],
    max helpers.maxParts (partCount identifier)⟩

/-- Bind an identifier to what a text stands for. -/
def bind (helpers : BoundHelpers) (identifier text : String) : BoundHelpers :=
  helpers.insert identifier (.ofText text)

def get? (helpers : BoundHelpers) (identifier : String) : Option HelperBinding :=
  (helpers.bindings.find? fun entry => entry.1 == identifier).map (·.2)

def size (helpers : BoundHelpers) : Nat := helpers.bindings.length

def isEmpty (helpers : BoundHelpers) : Bool := helpers.bindings.isEmpty

/-- Where the settings keep the bindings. -/
def settingsPath : String := "Neos.Fusion.defaultContext"

/-- The bindings of a mapping, for the keys that are texts. -/
def ofMapping (entries : Yaml.Mapping) : BoundHelpers :=
  entries.foldl
    (fun helpers entry =>
      match entry.1.asString? with
      | some identifier => helpers.insert identifier (.ofValue entry.2)
      | none => helpers)
    empty

def ofConfiguration (config : Configuration) : BoundHelpers :=
  match (config.get? settingsPath).bind Yaml.Value.asMapping? with
  | some entries => ofMapping entries
  | none => empty

/-- A bound identifier made of leading parts. -/
structure Match where
  consumed : Nat
  identifier : String
  binding : HelperBinding
  deriving DecidableEq, Repr

/-- The bound identifier made of exactly the first `count` parts. -/
def matchOf? (helpers : BoundHelpers) (parts : List String) (count : Nat) : Option Match :=
  let identifier := ".".intercalate (parts.take count)
  (helpers.get? identifier).map fun binding => ⟨count, identifier, binding⟩

/-- The first match when the number of parts goes down from `count` to one. -/
def matchDown? (helpers : BoundHelpers) (parts : List String) : Nat → Option Match
  | 0 => none
  | count + 1 => (helpers.matchOf? parts (count + 1)).or (helpers.matchDown? parts count)

/-- The longest bound identifier made of leading parts. No identifier has more than `maxParts`. -/
def longestMatch? (helpers : BoundHelpers) (parts : List String) : Option Match :=
  helpers.matchDown? parts (min parts.length helpers.maxParts)

end BoundHelpers

end FusionAtlas
