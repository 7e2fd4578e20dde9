import FusionAtlas.SyntaxTree
import FusionAtlas.Template.StatementReader

/-!
Numbering the parts of a template. Parts are placed in reading order, each behind its own parts;
abandoned pieces are placed where they were found and get no parent.
-/

set_option autoImplicit false
set_option relaxedAutoImplicit false

namespace FusionAtlas.SyntaxTree

open FusionAtlas.Template

/-- Nodes placed so far. Parents are filled in at the end. -/
abbrev Nodes := Array SyntaxNode

/-- Place one node; its number is the number of nodes before it. -/
def place (kind : NodeKind) (range : ByteRange) (nodes : Nodes) : NodeId × Nodes :=
  (nodes.size, nodes.push ⟨kind, range, none⟩)

mutual

def placeExpr : Expr → Nodes → NodeId × Nodes
  | .text r v, nodes => place (.literalString v) r nodes
  | .number r v, nodes => place (.literalNumber v) r nodes
  | .boolean r v, nodes => place (.literalBoolean v) r nodes
  | .null r, nodes => place .literalNull r nodes
  | .array r items, nodes =>
    let placed := placeArguments items nodes
    place (.literalArray placed.1) r placed.2
  | .chain r segments, nodes =>
    let placed := placeSegments segments nodes
    place (.objectNode placed.1) r placed.2
  | .negation r operand, nodes =>
    let placed := placeExpr operand nodes
    place (.not placed.1) r placed.2
  | .operation r left operator right, nodes =>
    let first := placeExpr left nodes
    let second := placeExpr right first.2
    place (.operation first.1 operator second.1) r second.2
  | .ternary r condition thenBranch elseBranch, nodes =>
    let first := placeExpr condition nodes
    let second := placeExpr thenBranch first.2
    let third := placeExpr elseBranch second.2
    place (.ternary first.1 second.1 third.1) r third.2
  | .trailed value abandoned, nodes =>
    let placed := placeExpr value nodes
    (placed.1, placeAbandoned abandoned placed.2)

/-- Place pieces that get no parent. -/
def placeAbandoned : List Expr → Nodes → Nodes
  | [], nodes => nodes
  | piece :: pieces, nodes => placeAbandoned pieces (placeExpr piece nodes).2

/-- Place what was found where an expression was expected; a broken place has no number. -/
def placeArgument : Argument → Nodes → Option NodeId × Nodes
  | .given value, nodes =>
    let placed := placeExpr value nodes
    (some placed.1, placed.2)
  | .broken abandoned, nodes => (none, placeAbandoned abandoned nodes)

/-- Place arguments; broken ones have no number. -/
def placeArguments : List Argument → Nodes → List NodeId × Nodes
  | [], nodes => ([], nodes)
  | argument :: more, nodes =>
    let first := placeArgument argument nodes
    let others := placeArguments more first.2
    (first.1.toList ++ others.1, others.2)

def placeSegment : Segment → Nodes → NodeId × Nodes
  | .name r v, nodes => place (.objectPathNode v) r nodes
  | .call r v args, nodes =>
    let placed := placeArguments args nodes
    place (.objectFunctionPathNode v placed.1) r placed.2

def placeSegments : List Segment → Nodes → List NodeId × Nodes
  | [], nodes => ([], nodes)
  | segment :: more, nodes =>
    let first := placeSegment segment nodes
    let others := placeSegments more first.2
    (first.1 :: others.1, others.2)

end

/-- The node kind of a path segment. -/
def pathSegmentKind : PathSegment → NodeKind
  | .plain _ identifier => .pathSegment identifier
  | .property _ identifier => .metaPathSegment identifier
  | .prototype _ identifier => .prototypePathSegment identifier

def placePathSegments : List PathSegment → Nodes → List NodeId × Nodes
  | [], nodes => ([], nodes)
  | segment :: more, nodes =>
    let first := place (pathSegmentKind segment) segment.range nodes
    let others := placePathSegments more first.2
    (first.1 :: others.1, others.2)

def placePath (path : Path) (nodes : Nodes) : NodeId × Nodes :=
  let placed := placePathSegments path.segments nodes
  place (.objectPath placed.1) path.range placed.2

def placeValue : Value → Nodes → NodeId × Nodes
  | .text r v, nodes => place (.stringValue v) r nodes
  | .number r v, nodes => place (.numberValue v) r nodes
  | .boolean r v, nodes => place (.boolValue v) r nodes
  | .null r, nodes => place .nullValue r nodes
  | .component r name, nodes => place (.fusionObjectValue name) r nodes
  | .embedded r identifier, nodes => place (.dslExpression identifier) r nodes
  | .expression r none, nodes => place (.eelExpression none) r nodes
  | .expression r (some body), nodes =>
    let placed := placeArgument body nodes
    place (.eelExpression placed.1) r placed.2
  | .missing offset, nodes => place .error (.emptyAt offset) nodes

def placeSource : CopySource → Nodes → NodeId × Nodes
  | .path path, nodes => placePath path nodes
  | .missing offset, nodes => place .error (.emptyAt offset) nodes

def placeOperation : Operation → Nodes → NodeId × Nodes
  | .assign r value, nodes =>
    let placed := placeValue value nodes
    place (.valueAssignment placed.1) r placed.2
  | .copy r source, nodes =>
    let placed := placeSource source nodes
    place (.valueCopy placed.1) r placed.2
  | .unset r, nodes => place .valueUnset r nodes

/-- Place an operation if there is one. -/
def placeOperation? : Option Operation → Nodes → Option NodeId × Nodes
  | none, nodes => (none, nodes)
  | some operation, nodes =>
    let placed := placeOperation operation nodes
    (some placed.1, placed.2)

mutual

def placeStatement : Statement → Nodes → NodeId × Nodes
  | .includeFile r path, nodes => place (.includeFile path) r nodes
  | .object r path operation none, nodes =>
    let first := placePath path nodes
    let second := placeOperation? operation first.2
    place (.objectStatement first.1 second.1 none) r second.2
  | .object r path operation (some block), nodes =>
    let first := placePath path nodes
    let second := placeOperation? operation first.2
    let third := placeStatements block second.2
    place (.objectStatement first.1 second.1 (some third.1)) r third.2

def placeStatements : List Statement → Nodes → List NodeId × Nodes
  | [], nodes => ([], nodes)
  | statement :: more, nodes =>
    let first := placeStatement statement nodes
    let others := placeStatements more first.2
    (first.1 :: others.1, others.2)

end

/-- The tree of a template; its root is placed last. -/
def ofTemplate (template : Template) : SyntaxTree :=
  let placed := placeStatements template.statements #[]
  let whole := place (.fusionFile placed.1) ⟨0, template.size⟩ placed.2
  ⟨link whole.2, some whole.1⟩

end FusionAtlas.SyntaxTree

namespace FusionAtlas

/-- The syntax tree of what was read. -/
def Parsed.tree (parsed : Parsed) : SyntaxTree := .ofTemplate parsed.template

end FusionAtlas
