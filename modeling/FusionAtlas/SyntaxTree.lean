import FusionAtlas.Text.Range

/-!
The syntax tree as an arena: nodes are numbered, children and parents are node numbers. A child is
numbered before its parent, so following parents always ends.
-/

set_option autoImplicit false
set_option relaxedAutoImplicit false

namespace FusionAtlas

/-- Number of a node in its tree. -/
abbrev NodeId := Nat

/-- What a node is, with its children. -/
inductive NodeKind where
  | fusionFile (statements : List NodeId)
  | includeFile (path : String)
  | objectStatement (path : NodeId) (operation : Option NodeId) (block : Option (List NodeId))
  | objectPath (segments : List NodeId)
  | pathSegment (identifier : String)
  | metaPathSegment (identifier : String)
  | prototypePathSegment (identifier : String)
  | valueAssignment (value : NodeId)
  | valueCopy (source : NodeId)
  | valueUnset
  | stringValue (value : String)
  | numberValue (value : String)
  | boolValue (value : Bool)
  | nullValue
  | fusionObjectValue (name : String)
  | dslExpression (identifier : String)
  | eelExpression (body : Option NodeId)
  | objectNode (path : List NodeId)
  | objectPathNode (value : String)
  | objectFunctionPathNode (value : String) (args : List NodeId)
  | literalString (value : String)
  | literalNumber (value : String)
  | literalBoolean (value : Bool)
  | literalNull
  | literalArray (items : List NodeId)
  | not (operand : NodeId)
  | operation (left : NodeId) (operator : String) (right : NodeId)
  | ternary (condition thenBranch elseBranch : NodeId)
  | error
  deriving DecidableEq, Repr

/-- What an indexed node is, without its content: the kinds of syntax nodes, and the kinds of
synthetic nodes that resolution attaches. -/
inductive NodeTag where
  | fusionFile | includeFile | objectStatement | objectPath | pathSegment | metaPathSegment
  | prototypePathSegment | valueAssignment | valueCopy | valueUnset | stringValue | numberValue
  | boolValue | nullValue | fusionObjectValue | dslExpression | eelExpression | objectNode
  | objectPathNode | objectFunctionPathNode | literalString | literalNumber | literalBoolean
  | literalNull | literalArray | not | operation | ternary | error
  | helper | helperMethod | label | fqcn
  deriving DecidableEq, Repr

namespace NodeTag

/-- Attached by resolution rather than read from the text. -/
def isSynthetic : NodeTag → Bool
  | helper | helperMethod | label | fqcn => true
  | _ => false

end NodeTag

namespace NodeKind

def tag : NodeKind → NodeTag
  | fusionFile _ => .fusionFile
  | includeFile _ => .includeFile
  | objectStatement _ _ _ => .objectStatement
  | objectPath _ => .objectPath
  | pathSegment _ => .pathSegment
  | metaPathSegment _ => .metaPathSegment
  | prototypePathSegment _ => .prototypePathSegment
  | valueAssignment _ => .valueAssignment
  | valueCopy _ => .valueCopy
  | valueUnset => .valueUnset
  | stringValue _ => .stringValue
  | numberValue _ => .numberValue
  | boolValue _ => .boolValue
  | nullValue => .nullValue
  | fusionObjectValue _ => .fusionObjectValue
  | dslExpression _ => .dslExpression
  | eelExpression _ => .eelExpression
  | objectNode _ => .objectNode
  | objectPathNode _ => .objectPathNode
  | objectFunctionPathNode _ _ => .objectFunctionPathNode
  | literalString _ => .literalString
  | literalNumber _ => .literalNumber
  | literalBoolean _ => .literalBoolean
  | literalNull => .literalNull
  | literalArray _ => .literalArray
  | not _ => .not
  | operation _ _ _ => .operation
  | ternary _ _ _ => .ternary
  | error => .error

def children : NodeKind → List NodeId
  | fusionFile statements => statements
  | objectStatement path op block => path :: (op.toList ++ block.getD [])
  | objectPath segments => segments
  | valueAssignment value => [value]
  | valueCopy source => [source]
  | eelExpression body => body.toList
  | objectNode path => path
  | objectFunctionPathNode _ args => args
  | literalArray items => items
  | not operand => [operand]
  | operation left _ right => [left, right]
  | ternary condition thenBranch elseBranch => [condition, thenBranch, elseBranch]
  | _ => []

def chainValue? : NodeKind → Option String
  | objectPathNode value | objectFunctionPathNode value _ => some value
  | _ => none

end NodeKind

/-- A node with the bytes it covers. -/
structure SyntaxNode where
  kind : NodeKind
  range : ByteRange
  parent : Option NodeId
  deriving DecidableEq, Repr

/-- The nodes of one template in order of their numbers, and the root. -/
structure SyntaxTree where
  nodes : Array SyntaxNode
  root : Option NodeId
  deriving DecidableEq, Repr

namespace SyntaxTree

def empty : SyntaxTree := ⟨#[], none⟩

def size (tree : SyntaxTree) : Nat := tree.nodes.size

/-- What a node is, if it exists. -/
def kind? (tree : SyntaxTree) (id : NodeId) : Option NodeKind := tree.nodes[id]?.map (·.kind)

/-- The bytes of a node; a missing node covers nothing at the start. -/
def range (tree : SyntaxTree) (id : NodeId) : ByteRange :=
  (tree.nodes[id]?.map (·.range)).getD (.emptyAt 0)

/-- The node that lists this one among its children. -/
def parent? (tree : SyntaxTree) (id : NodeId) : Option NodeId := tree.nodes[id]?.bind (·.parent)

/-- Nearest ancestor with the given tag, at most `fuel` steps up. -/
def ancestorWithin (tree : SyntaxTree) (tag : NodeTag) : Nat → NodeId → Option NodeId
  | 0, _ => none
  | fuel + 1, id =>
    match tree.parent? id with
    | none => none
    | some parent =>
      if (tree.kind? parent).map NodeKind.tag = some tag then some parent
      else tree.ancestorWithin tag fuel parent

/-- Nearest ancestor with the given tag, the node itself not counted. Parents have larger numbers,
so no more steps are possible than there are nodes. -/
def findAncestor (tree : SyntaxTree) (id : NodeId) (tag : NodeTag) : Option NodeId :=
  tree.ancestorWithin tag tree.size id

/-- Name `parent` as the parent of every node in the list. -/
def adopt (nodes : Array SyntaxNode) (parent : NodeId) (children : List NodeId) :
    Array SyntaxNode :=
  children.foldl (fun nodes child => nodes.modify child fun n => { n with parent := some parent })
    nodes

/-- Link every child to its parent. -/
def link (nodes : Array SyntaxNode) : Array SyntaxNode :=
  (List.range nodes.size).foldl
    (fun linked id =>
      match nodes[id]? with
      | some node => adopt linked id node.kind.children
      | none => linked)
    nodes

end SyntaxTree

end FusionAtlas
