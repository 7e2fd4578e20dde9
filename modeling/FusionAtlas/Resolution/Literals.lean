import FusionAtlas.Resolution.Chain
import FusionAtlas.TemplateFile

/-!
Literals with a meaning: ids of labels, and names of classes that are an argument, the value
of a meta property, or part of a filter such as `[instanceof \Acme\Thing]`.
-/

set_option autoImplicit false
set_option relaxedAutoImplicit false

namespace FusionAtlas

/-- What is attached to a file, and where. -/
structure Attachment where
  content : EntryContent
  tag : NodeTag
  range : ByteRange
  deriving DecidableEq, Repr

namespace Attachment

/-- Helpers that know the labels of all languages. -/
def labelHelpers : List String := ["I18n", "Translation"]

/-- Their method that takes the id of a label. -/
def labelMethod : String := "translate"

/-- Helpers whose type check takes the name of a class. -/
def typeCheckHelpers : List String := ["PropTypes"]

def instanceofMethod : String := "instanceof"

/-- Meta properties whose value is the name of a class. -/
def metaClassKeys : List String := ["class", "exceptionHandler"]

/-- The bytes between the quotes of a literal. -/
def inside (range : ByteRange) : ByteRange :=
  if range.length < 2 then range else ⟨range.start + 1, range.stop - 1⟩

/-- The only argument of a call, if it is a string. -/
def onlyStringArgument? (tree : SyntaxTree) (segment : NodeId) : Option (NodeId × String) :=
  match tree.kind? segment with
  | some (.objectFunctionPathNode _ [argument]) =>
    match tree.kind? argument with
    | some (.literalString value) => some (argument, value)
    | _ => none
  | _ => none

/-- The reference to a class by its written name, if the class is found. -/
def reference (disk : Disk) (written : List Char) (literal : NodeId) (range : ByteRange) :
    StateM ClassLibrary (Option Attachment) := do
  let fqcn := String.ofList (ClassName.collapse written)
  let found ← findClass disk fqcn
  return found.map fun cls => ⟨.classReference fqcn cls literal, .fqcn, range⟩

/-- What the argument of a call on a helper means. -/
def ofStep (tree : SyntaxTree) (disk : Disk) (step : ChainStep) :
    StateM ClassLibrary (Option Attachment) := do
  match (tree.kind? step.segment).bind NodeKind.chainValue?, onlyStringArgument? tree step.segment with
  | some called, some (literal, value) =>
    let helper := step.helper.identifier
    let range := inside (tree.range literal)
    if labelHelpers.contains helper && called == labelMethod then
      return some ⟨.label value literal, .label, range⟩
    else if typeCheckHelpers.contains helper && Text.eqIgnoringAsciiCase called instanceofMethod then
      reference disk value.toList literal range
    else return none
  | _, _ => return none

/-- The segment of a path that may be a meta property: the first one, or the one behind a
prototype. -/
def metaSegment? (tree : SyntaxTree) (segments : List NodeId) : Option NodeId :=
  match segments with
  | first :: second :: _ =>
    match tree.kind? first with
    | some (.prototypePathSegment _) => some second
    | _ => some first
  | [first] => some first
  | [] => none

/-- The string that a statement assigns to a meta property for a class. -/
def metaClassLiteral? (tree : SyntaxTree) (kind : NodeKind) : Option (NodeId × String) := do
  let .objectStatement path (some operation) _ := kind | none
  let .objectPath segments ← tree.kind? path | none
  let .metaPathSegment identifier ← tree.kind? (← metaSegment? tree segments) | none
  if !metaClassKeys.contains identifier then none
  let .valueAssignment value ← tree.kind? operation | none
  let .stringValue text ← tree.kind? value | none
  return (value, text)

/-- The reference in a meta property, if a node is a statement that assigns one. -/
def ofMetaClass (tree : SyntaxTree) (disk : Disk) (node : SyntaxNode) :
    StateM ClassLibrary (Option Attachment) :=
  match metaClassLiteral? tree node.kind with
  | some (literal, text) => reference disk text.toList literal (inside (tree.range literal))
  | none => return none

/-- The references in meta properties, in the order of their statements. -/
def ofMetaClasses (tree : SyntaxTree) (disk : Disk) : StateM ClassLibrary (List Attachment) := do
  let found ← tree.nodes.toList.mapM (ofMetaClass tree disk)
  return found.filterMap id

/-- The opening of a filter by class. -/
def filterOpening : List Char := "[instanceof".toList

/-- The name in a filter, and the text before it from the opening on. -/
structure FilterName where
  lead : List Char
  name : List Char
  deriving DecidableEq, Repr

def filterPattern : Text.Pattern FilterName := fun _ text => do
  let rest ← Text.afterBlanks? (← Text.afterOpening? filterOpening text)
  let (name, behind) ← Text.takeRun? (fun c => c != ']' && !Text.isBlank c) rest
  match Text.trimStart behind with
  | ']' :: after =>
    some ⟨⟨text.take (text.length - rest.length), name⟩, text.length - after.length⟩
  | _ => none

/-- The names with a leading backslash in the filters of a string, and their places in it. Other
names in filters are those of components. -/
def filterNames (text : List Char) : List (Nat × List Char) :=
  if (Text.afterOpening? filterOpening (Text.trimStart text)).isNone then []
  else
    (Text.scan filterPattern text).filterMap fun hit =>
      if hit.value.name.head? = some '\\' then
        some (hit.start + Text.byteSize hit.value.lead, hit.value.name)
      else none

def stringText? : NodeKind → Option String
  | .stringValue text | .literalString text => some text
  | _ => none

/-- The references in the filters of one string. -/
def ofFilters (disk : Disk) (literal : NodeId) (node : SyntaxNode) :
    StateM ClassLibrary (List Attachment) := do
  let names := ((stringText? node.kind).map fun text => filterNames text.toList).getD []
  let found ← names.mapM fun entry =>
    let start := (inside node.range).start + entry.1
    reference disk entry.2 literal ⟨start, start + Text.byteSize entry.2⟩
  return found.filterMap id

/-- The references in filters, in the order of the strings. -/
def ofInstanceofFilters (tree : SyntaxTree) (disk : Disk) :
    StateM ClassLibrary (List Attachment) := do
  let found ← tree.nodes.toList.zipIdx.mapM fun entry => ofFilters disk entry.2 entry.1
  return found.flatten

end Attachment

end FusionAtlas
