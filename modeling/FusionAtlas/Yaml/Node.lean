import FusionAtlas.Yaml.Token.Lexer

/-!
The nodes of a YAML document: scalars and collections as they are written, before scalars get their
values and aliases their targets.
-/

set_option autoImplicit false
set_option relaxedAutoImplicit false

namespace FusionAtlas.Yaml

/-- A node with its tag. -/
inductive Node where
  | scalar (tag : Option (List Char)) (text : List Char) (isPlain : Bool)
  | sequence (tag : Option (List Char)) (items : List Node)
  | mapping (tag : Option (List Char)) (entries : List (Node × Node))
  | aliasOf (id : Nat)
  deriving Repr, Inhabited

namespace Node

/-- The node of a value left out. -/
def absent : Node := scalar none [] true

mutual
/-- Number of marks a node is written with: one for a scalar or an alias, two for the ends of a
collection. -/
def size : Node → Nat
  | scalar _ _ _ => 1
  | aliasOf _ => 1
  | sequence _ items => 2 + sizeOfItems items
  | mapping _ entries => 2 + sizeOfEntries entries

/-- Sum of the sizes. -/
def sizeOfItems : List Node → Nat
  | [] => 0
  | item :: more => item.size + sizeOfItems more

/-- Sum of the sizes. -/
def sizeOfEntries : List (Node × Node) → Nat
  | [] => 0
  | entry :: more => sizeOfEntry entry + sizeOfEntries more

/-- Size of key and value. -/
def sizeOfEntry : Node × Node → Nat
  | (k, v) => k.size + v.size
end

end Node

/-- The anchors of a document. An anchor gets the number of names known before it as its id; two
anchors of one id mean the later one. -/
structure Anchors where
  ids : List (List Char × Nat)
  /-- How many anchors were met. -/
  count : Nat
  /-- The latest anchor of an id comes first. -/
  latest : List (Nat × Nat)
  /-- The node of each anchor. -/
  nodes : List (Nat × Node)
  deriving Repr, Inhabited

namespace Anchors

def none : Anchors := ⟨[], 0, [], []⟩

def id? (anchors : Anchors) (name : List Char) : Option Nat :=
  (anchors.ids.find? fun entry => entry.1 == name).map (·.2)

/-- Meet an anchor. -/
def meet (anchors : Anchors) (name : List Char) : Anchors :=
  let id := anchors.ids.length
  { anchors with
    ids := (name, id) :: anchors.ids.filter (fun entry => entry.1 != name)
    count := anchors.count + 1
    latest := (id, anchors.count) :: anchors.latest }

def node? (anchors : Anchors) (id : Nat) : Option Node := do
  let (_, serial) ← anchors.latest.find? fun entry => entry.1 == id
  let (_, node) ← anchors.nodes.find? fun entry => entry.1 == serial
  return node

end Anchors

/-- A document read so far: the tokens ahead, what handles of tags mean, and the anchors. -/
structure Reading where
  tokens : List Token
  handles : List (List Char × List Char)
  anchors : Anchors

namespace Reading

/-- The reading behind the next token. -/
def skip (r : Reading) : Reading := { r with tokens := r.tokens.tail }

/-- What is written before a node. -/
structure Properties where
  anchor : Option (List Char)
  tag : Option (List Char)

/-- The tag a handle and a suffix stand for. -/
def tagOf (r : Reading) (handle suffix : List Char) : Except Fault (List Char) :=
  if handle.isEmpty then .ok suffix
  else
    match r.handles.find? fun entry => entry.1 == handle with
    | some (_, start) => .ok (start ++ suffix)
    | none => .error .unknownTagHandle

/-- Read an anchor and a tag, in either order. -/
def properties (r : Reading) : Except Fault (Properties × Reading) :=
  match r.tokens with
  | .anchor name :: .tag handle suffix :: rest => do
    return (⟨some name, some (← r.tagOf handle suffix)⟩, { r with tokens := rest })
  | .tag handle suffix :: .anchor name :: rest => do
    return (⟨some name, some (← r.tagOf handle suffix)⟩, { r with tokens := rest })
  | .anchor name :: rest => .ok (⟨some name, none⟩, { r with tokens := rest })
  | .tag handle suffix :: rest => do
    return (⟨none, some (← r.tagOf handle suffix)⟩, { r with tokens := rest })
  | _ => .ok (⟨none, none⟩, r)

/-- Meet the anchor of a node, if it has one. -/
def meet (r : Reading) (properties : Properties) : Reading :=
  match properties.anchor with
  | some name => { r with anchors := r.anchors.meet name }
  | none => r

/-- The node of the anchor with the given serial number is known. -/
def settle (r : Reading) (serial : Nat) (node : Node) : Reading :=
  { r with anchors := { r.anchors with nodes := (serial, node) :: r.anchors.nodes } }

/-- The token ahead ends an entry of the collection around it, so a value is left out. -/
def leavesOut (ends : List Token) (r : Reading) : Bool :=
  match r.tokens with
  | [] => false
  | token :: _ => ends.contains token

mutual
/-- Read a node. Indented collections stand only where `block` allows them, and a sequence that is
not indented only as part of a mapping. -/
def node : Nat → Bool → Bool → Reading → Except Fault (Node × Reading)
  | 0, _, _, _ => .error .unexpectedToken
  | fuel + 1, block, inMapping, r => do
    match r.tokens with
    | .aliasName name :: rest =>
      match r.anchors.id? name with
      | some id => return (.aliasOf id, { r with tokens := rest })
      | none => throw (.unknownAnchor (String.ofList name))
    | _ =>
      let (properties, r) ← r.properties
      let serial := r.anchors.count
      let (content, r) ← content fuel block inMapping properties r
      return (content, if properties.anchor.isSome then r.settle serial content else r)

/-- Read the content of a node behind its properties. -/
def content : Nat → Bool → Bool → Properties → Reading → Except Fault (Node × Reading)
  | 0, _, _, _, _ => .error .unexpectedToken
  | fuel + 1, block, inMapping, properties, r =>
    let tag := properties.tag
    let inside := (r.meet properties).skip
    match r.tokens.head?, block with
    | some (.scalar text isPlain), _ =>
      .ok (.scalar tag text isPlain, inside)
    | some .flowSequenceStart, _ =>
      (flowItems fuel true inside).map fun found => (.sequence tag found.1, found.2)
    | some .flowMappingStart, _ =>
      (flowEntries fuel true inside).map fun found => (.mapping tag found.1, found.2)
    | some .blockSequenceStart, true =>
      (blockItems fuel inside).map fun found => (.sequence tag found.1, found.2)
    | some .blockMappingStart, true =>
      (blockEntries fuel inside).map fun found => (.mapping tag found.1, found.2)
    | some .blockEntry, _ =>
      if inMapping then
        (looseItems fuel (r.meet properties)).map fun found => (.sequence tag found.1, found.2)
      else if properties.anchor.isSome || tag.isSome then
        .ok (.scalar tag [] true, r.meet properties)
      else .error .unexpectedToken
    | _, _ =>
      if properties.anchor.isSome || tag.isSome then
        .ok (.scalar tag [] true, r.meet properties)
      else .error .unexpectedToken

/-- Read the items of an indented sequence. -/
def blockItems : Nat → Reading → Except Fault (List Node × Reading)
  | 0, _ => .error .unexpectedToken
  | fuel + 1, r =>
    match r.tokens with
    | .blockEntry :: _ => do
      let (item, r) ← if r.skip.leavesOut [.blockEntry, .blockEnd] then pure (.absent, r.skip)
        else node fuel true false r.skip
      let (items, r) ← blockItems fuel r
      return (item :: items, r)
    | .blockEnd :: _ => .ok ([], r.skip)
    | _ => .error .unexpectedToken

/-- Read the items of a sequence that is not indented. -/
def looseItems : Nat → Reading → Except Fault (List Node × Reading)
  | 0, _ => .error .unexpectedToken
  | fuel + 1, r =>
    match r.tokens with
    | .blockEntry :: _ => do
      let (item, r) ← if r.skip.leavesOut [.blockEntry, .key, .value, .blockEnd] then
          pure (.absent, r.skip)
        else node fuel true false r.skip
      let (items, r) ← looseItems fuel r
      return (item :: items, r)
    | _ => .ok ([], r)

/-- Read the entries of an indented mapping. -/
def blockEntries : Nat → Reading → Except Fault (List (Node × Node) × Reading)
  | 0, _ => .error .unexpectedToken
  | fuel + 1, r => do
    match r.tokens with
    | .blockEnd :: _ => return ([], r.skip)
    | .key :: _ =>
      let part (r : Reading) := if r.leavesOut [.key, .value, .blockEnd] then pure (Node.absent, r)
        else node fuel true true r
      let (key, r) ← part r.skip
      let (value, r) ← if r.tokens.head? == some .value then part r.skip else pure (.absent, r)
      let (entries, r) ← blockEntries fuel r
      return ((key, value) :: entries, r)
    | _ => throw .unexpectedToken

/-- Read the items of a sequence in brackets. An item may be a mapping of one entry. -/
def flowItems : Nat → Bool → Reading → Except Fault (List Node × Reading)
  | 0, _, _ => .error .unexpectedToken
  | fuel + 1, isFirst, r => do
    if r.tokens.head? == some .flowSequenceEnd then return ([], r.skip)
    let r ← if isFirst then pure r
      else if r.tokens.head? == some .flowEntry then pure r.skip
      else throw .unexpectedToken
    match r.tokens with
    | .flowSequenceEnd :: _ => return ([], r.skip)
    | .key :: _ =>
      let r := r.skip
      let (key, r) ← if r.leavesOut [.value, .flowEntry, .flowSequenceEnd] then
          pure (.absent, r.skip)
        else node fuel false false r
      let (value, r) ← if r.tokens.head? == some .value then
          (if r.skip.leavesOut [.flowEntry, .flowSequenceEnd] then pure (.absent, r.skip)
          else node fuel false false r.skip)
        else pure (.absent, r)
      let (items, r) ← flowItems fuel false r
      return (.mapping none [(key, value)] :: items, r)
    | _ =>
      let (item, r) ← node fuel false false r
      let (items, r) ← flowItems fuel false r
      return (item :: items, r)

/-- Read the entries of a mapping in braces. -/
def flowEntries : Nat → Bool → Reading → Except Fault (List (Node × Node) × Reading)
  | 0, _, _ => .error .unexpectedToken
  | fuel + 1, isFirst, r => do
    if r.tokens.head? == some .flowMappingEnd then return ([], r.skip)
    let r ← if isFirst then pure r
      else if r.tokens.head? == some .flowEntry then pure r.skip
      else throw .unexpectedToken
    match r.tokens with
    | .flowMappingEnd :: _ => return ([], r.skip)
    | .key :: _ =>
      let r := r.skip
      let (key, r) ← if r.leavesOut [.value, .flowEntry, .flowMappingEnd] then pure (.absent, r)
        else node fuel false false r
      let (value, r) ← if r.tokens.head? == some .value then
          (if r.skip.leavesOut [.flowEntry, .flowMappingEnd] then pure (.absent, r.skip)
          else node fuel false false r.skip)
        else pure (.absent, r)
      let (entries, r) ← flowEntries fuel false r
      return ((key, value) :: entries, r)
    | _ =>
      let (key, r) ← node fuel false false r
      let (entries, r) ← flowEntries fuel false r
      return ((key, .absent) :: entries, r)
end

end Reading

/-- A document: its root, and what its aliases mean. An empty text has no root. -/
structure Document where
  root : Option Node
  anchors : Anchors
  deriving Repr, Inhabited

namespace Document

/-- What handles mean without directives. -/
def standardHandles : List (List Char × List Char) :=
  [(['!'], ['!']), (['!', '!'], "tag:yaml.org,2002:".toList)]

/-- Read directives: at most one version, and each handle once. -/
def directives (hasVersion : Bool) (handles : List (List Char × List Char)) :
    List Token → Except Fault (List (List Char × List Char) × List Token)
  | .versionDirective major minor :: rest =>
    if hasVersion then .error .repeatedDirective
    else if major = 1 ∧ (minor = 1 ∨ minor = 2) then directives true handles rest
    else .error .unsupportedVersion
  | .tagDirective handle start :: rest =>
    if handles.any fun entry => entry.1 == handle then .error .repeatedDirective
    else directives hasVersion (handles ++ [(handle, start)]) rest
  | tokens => .ok (handles ++ standardHandles, tokens)

/-- No content stands before the next document or directive, or the end. -/
def isBare : List Token → Bool
  | [] => true
  | .versionDirective _ _ :: _ | .tagDirective _ _ :: _ | .documentStart :: _
  | .documentEnd :: _ => true
  | _ => false

/-- Read the only document among the tokens. -/
def ofTokens (tokens : List Token) : Except Fault Document := do
  if tokens.isEmpty then return ⟨none, .none⟩
  let fuel := 4 * tokens.length + 4
  let (handles, rest) ← directives false [] tokens
  let explicit := isBare tokens && tokens.head? != some .documentEnd
  let rest ← if explicit then
      (if rest.head? == some .documentStart then pure rest.tail else throw .unexpectedToken)
    else pure tokens
  let r : Reading := ⟨rest, handles, .none⟩
  let (root, r) ← if explicit && isBare rest then pure (.absent, r)
    else Reading.node fuel true false r
  if (r.tokens.dropWhile (· == .documentEnd)).isEmpty then return ⟨some root, r.anchors⟩
  else throw .moreThanOneDocument

def ofText (text : List Char) : Except Fault Document := do
  ofTokens (← Lexer.tokens text)

end Document

end FusionAtlas.Yaml
