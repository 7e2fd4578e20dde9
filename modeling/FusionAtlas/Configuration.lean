import FusionAtlas.FileUri
import FusionAtlas.Yaml.Document

/-!
Settings in layers. Each layer is the mapping of one YAML file; a later layer overrides an earlier
one, mapping by mapping.
-/

set_option autoImplicit false
set_option relaxedAutoImplicit false

namespace FusionAtlas

open FusionAtlas.Yaml (Mapping Value)

/-- Why a file is no layer. -/
inductive ConfigError where
  | yaml (source : FileUri) (fault : Yaml.Fault)
  | notAMapping (source : FileUri)
  deriving DecidableEq, Repr

namespace ConfigError

/-- What an error says. The reason why a text is no YAML is told in the words of the YAML library; where
these are not given the message ends before it. -/
def message (error : ConfigError) (words : Option (Yaml.Fault → String) := none) : String :=
  match error with
  | yaml source fault =>
    let reason := words.map fun words => ": " ++ words fault
    "invalid YAML in " ++ source.text ++ reason.getD ""
  | notAMapping source => "configuration root of " ++ source.text ++ " must be a mapping"

end ConfigError

/-- The settings of one file. -/
structure ConfigLayer where
  source : FileUri
  settings : Mapping
  deriving Repr, Inhabited

namespace ConfigLayer

/-- Read a layer. A document without content has no settings. -/
def parse (source : FileUri) (text : String) : Except ConfigError ConfigLayer :=
  match Yaml.parse text with
  | .error fault => .error (.yaml source fault)
  | .ok .null => .ok ⟨source, []⟩
  | .ok (.mapping settings) => .ok ⟨source, settings⟩
  | .ok _ => .error (.notAMapping source)

/-- The value at a list of keys. -/
def valueAt? (layer : ConfigLayer) (keys : List String) : Option Value :=
  (Value.mapping layer.settings).memberAt? keys

end ConfigLayer

namespace Yaml.Value

/-- Change the value of a key, or add the key at the end. -/
def alter (entries : Mapping) (key : Value) (change : Option Value → Value) : Mapping :=
  match entries with
  | [] => [(key, change none)]
  | entry :: more =>
    if entry.1.same key then (entry.1, change (some entry.2)) :: more
    else entry :: alter more key change

mutual
/-- Lay one value over another: two mappings merge key by key, anything else replaces. -/
def overlay : Value → Value → Value
  | .mapping base, .mapping upper => .mapping (overlayEntries base upper)
  | _, upper => upper

/-- Lay entries over a mapping, one after the other. -/
def overlayEntries : Mapping → List (Value × Value) → Mapping
  | base, [] => base
  | base, (key, value) :: more =>
    overlayEntries
      (alter base key fun present =>
        match present with
        | some old => overlay old value
        | none => value)
      more
end

end Yaml.Value

/-- Layers in order, the strongest last. -/
structure Configuration where
  layers : List ConfigLayer
  deriving Repr, Inhabited

namespace Configuration

def empty : Configuration := ⟨[]⟩

def push (config : Configuration) (layer : ConfigLayer) : Configuration :=
  ⟨config.layers ++ [layer]⟩

/-- Read a layer and add it on top. -/
def pushText (config : Configuration) (source : FileUri) (text : String) :
    Except ConfigError Configuration :=
  (ConfigLayer.parse source text).map config.push

def remove (config : Configuration) (source : FileUri) : Configuration :=
  ⟨config.layers.filter fun layer => layer.source ≠ source⟩

def hasSource (config : Configuration) (source : FileUri) : Bool :=
  config.layers.any fun layer => layer.source = source

/-- The keys of a dotted path; the empty path has none. -/
def keysOf (path : String) : List String :=
  if path.isEmpty then [] else (path.toList.splitOn '.').map String.ofList

/-- A value and the file it is from. -/
structure Match where
  source : FileUri
  value : Value
  deriving Repr, Inhabited

/-- The values at a path, one for each layer that has it. -/
def search (config : Configuration) (path : String) : List Match :=
  config.layers.filterMap fun layer =>
    (layer.valueAt? (keysOf path)).map fun value => ⟨layer.source, value⟩

/-- Lay values over each other in order. -/
def overlayAll : List Value → Option Value
  | [] => none
  | value :: more => some (more.foldl Value.overlay value)

/-- The value at a path after laying all layers over each other. -/
def get? (config : Configuration) (path : String) : Option Value :=
  overlayAll ((config.search path).map (·.value))

end Configuration

end FusionAtlas
