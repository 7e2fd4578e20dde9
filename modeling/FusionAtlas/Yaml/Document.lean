import FusionAtlas.Yaml.Node
import FusionAtlas.Yaml.Scalar

/-!
The value of a document. Aliases are expanded, with a limit on how often; collections nest at most
128 deep, which also ends an alias inside its own target. A key stands once in a mapping.
-/

set_option autoImplicit false
set_option relaxedAutoImplicit false

namespace FusionAtlas.Yaml.Document

/-- How deep collections nest. -/
def maxDepth : Nat := 128

/-- How a tag of the program's own is written: its name behind one exclamation mark. Where nothing
follows the mark, the mark is the name. -/
def ownTag? : Option (List Char) → Option (List Char)
  | some ['!'] => some "!!".toList
  | some ('!' :: '!' :: c :: name) => some ('!' :: c :: name)
  | some ('!' :: name) => some ('!' :: name)
  | _ => none

/-- Put a value under the tag of its node, if that is one of the program's own. -/
def withTag (tag : Option (List Char)) (value : Value) : Value :=
  match ownTag? tag with
  | some name => .tagged (String.ofList name) value
  | none => value

def scalarValue (tag : Option (List Char)) (text : List Char) (isPlain : Bool) :
    Except Fault Value :=
  let untagged :=
    if isPlain then Scalar.plainValue text else .ok (.string (String.ofList text))
  match tag with
  | none => untagged
  | some name => if (ownTag? tag).isSome then untagged.map (withTag tag) else Scalar.taggedValue name text

/-- The node itself, or the target of an alias. The count is of the aliases that may still be
followed. -/
def target (anchors : Anchors) (node : Node) (left : Nat) : Except Fault (Node × Nat) :=
  match node with
  | .aliasOf id =>
    match left, anchors.node? id with
    | 0, _ => .error .tooManyRepetitions
    | _ + 1, none => .error .tooDeep
    | left + 1, some node => .ok (node, left)
  | node => .ok (node, left)

/-- Entries in order, each key once. -/
def addEntry (entries : Mapping) (key value : Value) : Except Fault Mapping :=
  if entries.any fun entry => entry.1.same key then .error .duplicateKey
  else .ok (entries ++ [(key, value)])

/-- The value of a node that is no alias. The values of its parts are found by `inner`; where there
is no such way, collections nest too deep. -/
def contentValue (inner : Option (Node → Nat → Except Fault (Value × Nat))) (node : Node)
    (left : Nat) : Except Fault (Value × Nat) :=
  match node, inner with
  | .scalar tag text isPlain, _ => do return (← scalarValue tag text isPlain, left)
  | .sequence tag items, some inner => do
    let (values, left) ← items.foldlM
      (fun (found : List Value × Nat) item => do
        let (value, left) ← inner item found.2
        return (found.1 ++ [value], left))
      ([], left)
    return (withTag tag (.sequence values), left)
  | .mapping tag entries, some inner => do
    let (entries, left) ← entries.foldlM
      (fun (found : Mapping × Nat) entry => do
        let (key, left) ← inner entry.1 found.2
        let (value, left) ← inner entry.2 left
        return (← addEntry found.1 key value, left))
      ([], left)
    return (withTag tag (.mapping entries), left)
  | _, _ => throw .tooDeep

/-- The value of a node that may hold collections nested up to the given depth. -/
def valueWithin (anchors : Anchors) : Nat → Node → Nat → Except Fault (Value × Nat)
  | 0, node, left => do
    let (node, left) ← target anchors node left
    contentValue none node left
  | depth + 1, node, left => do
    let (node, left) ← target anchors node left
    contentValue (some (valueWithin anchors depth)) node left

def value (document : Document) : Except Fault Value :=
  match document.root with
  | none => .ok .null
  | some root =>
    (valueWithin document.anchors maxDepth root (root.size * 100)).map (·.1)

end FusionAtlas.Yaml.Document

namespace FusionAtlas.Yaml

/-- The value of a text that holds one document or none. -/
def parse (text : String) : Except Fault Value := do
  (← Document.ofText text.toList).value

end FusionAtlas.Yaml
