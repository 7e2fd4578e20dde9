import FusionAtlas.SyntaxTree.OfTemplate

/-!
Syntax without its places. Two templates that differ in nothing but where their parts were read from
have trees that differ in nothing but ranges: the same nodes under the same numbers. Main statement:
`SyntaxTree.bare_ofTemplate`.
-/

set_option autoImplicit false
set_option relaxedAutoImplicit false

namespace FusionAtlas

/-- The place of what has none. -/
def nowhere : ByteRange := .emptyAt 0

namespace Template

mutual

def Expr.bare : Expr → Expr
  | .text _ value => .text nowhere value
  | .number _ value => .number nowhere value
  | .boolean _ value => .boolean nowhere value
  | .null _ => .null nowhere
  | .array _ items => .array nowhere (argumentsBare items)
  | .chain _ segments => .chain nowhere (segmentsBare segments)
  | .negation _ operand => .negation nowhere operand.bare
  | .operation _ left operator right => .operation nowhere left.bare operator right.bare
  | .ternary _ condition thenBranch elseBranch =>
    .ternary nowhere condition.bare thenBranch.bare elseBranch.bare
  | .trailed value abandoned => .trailed value.bare (abandonedBare abandoned)

def abandonedBare : List Expr → List Expr
  | [] => []
  | piece :: pieces => piece.bare :: abandonedBare pieces

def Argument.bare : Argument → Argument
  | .given value => .given value.bare
  | .broken abandoned => .broken (abandonedBare abandoned)

def argumentsBare : List Argument → List Argument
  | [] => []
  | argument :: more => argument.bare :: argumentsBare more

def Segment.bare : Segment → Segment
  | .name _ value => .name nowhere value
  | .call _ value arguments => .call nowhere value (argumentsBare arguments)

def segmentsBare : List Segment → List Segment
  | [] => []
  | segment :: more => segment.bare :: segmentsBare more

end

def PathSegment.bare : PathSegment → PathSegment
  | .plain _ identifier => .plain nowhere identifier
  | .property _ identifier => .property nowhere identifier
  | .prototype _ identifier => .prototype nowhere identifier

theorem PathSegment.range_bare (segment : PathSegment) : segment.bare.range = nowhere := by
  cases segment <;> rfl

def Path.bare (path : Path) : Path := ⟨path.first.bare, path.others.map PathSegment.bare⟩

theorem Path.range_bare (path : Path) : path.bare.range = nowhere := by
  have last : path.bare.last = path.last.bare := by
    simp only [last, bare, List.getLast?_map]
    cases path.others.getLast? <;> rfl
  rw [range, last, PathSegment.range_bare, bare, PathSegment.range_bare, nowhere,
    ByteRange.emptyAt]

def Value.bare : Value → Value
  | .text _ value => .text nowhere value
  | .number _ value => .number nowhere value
  | .boolean _ value => .boolean nowhere value
  | .null _ => .null nowhere
  | .component _ name => .component nowhere name
  | .embedded _ identifier => .embedded nowhere identifier
  | .expression _ body => .expression nowhere (body.map Argument.bare)
  | .missing _ => .missing 0

def CopySource.bare : CopySource → CopySource
  | .path source => .path source.bare
  | .missing _ => .missing 0

def Operation.bare : Operation → Operation
  | .assign _ value => .assign nowhere value.bare
  | .copy _ source => .copy nowhere source.bare
  | .unset _ => .unset nowhere

mutual

def Statement.bare : Statement → Statement
  | .includeFile _ path => .includeFile nowhere path
  | .object _ path operation none => .object nowhere path.bare (operation.map Operation.bare) none
  | .object _ path operation (some block) =>
    .object nowhere path.bare (operation.map Operation.bare) (some (statementsBare block))

def statementsBare : List Statement → List Statement
  | [] => []
  | statement :: more => statement.bare :: statementsBare more

end

end Template

def Template.bare (template : Template) : Template :=
  ⟨Template.statementsBare template.statements, 0⟩

def SyntaxNode.bare (node : SyntaxNode) : SyntaxNode := { node with range := nowhere }

def SyntaxTree.bare (tree : SyntaxTree) : SyntaxTree := ⟨tree.nodes.map SyntaxNode.bare, tree.root⟩

namespace SyntaxTree

open FusionAtlas.Template

theorem place_bare (kind : NodeKind) (range : ByteRange) (nodes : Nodes) :
    place kind nowhere (nodes.map SyntaxNode.bare) =
      ((place kind range nodes).1, (place kind range nodes).2.map SyntaxNode.bare) := by
  simp [place, SyntaxNode.bare]

mutual

theorem placeExpr_bare : ∀ (e : Expr) (nodes : Nodes),
    placeExpr e.bare (nodes.map SyntaxNode.bare) =
      ((placeExpr e nodes).1, (placeExpr e nodes).2.map SyntaxNode.bare)
  | .text r v, nodes => place_bare _ r nodes
  | .number r v, nodes => place_bare _ r nodes
  | .boolean r v, nodes => place_bare _ r nodes
  | .null r, nodes => place_bare _ r nodes
  | .array r items, nodes => by
    simp only [Expr.bare, placeExpr, placeArguments_bare items nodes, place_bare _ r]
  | .chain r segments, nodes => by
    simp only [Expr.bare, placeExpr, placeSegments_bare segments nodes, place_bare _ r]
  | .negation r operand, nodes => by
    simp only [Expr.bare, placeExpr, placeExpr_bare operand nodes, place_bare _ r]
  | .operation r left operator right, nodes => by
    simp only [Expr.bare, placeExpr, placeExpr_bare left, placeExpr_bare right, place_bare _ r]
  | .ternary r condition thenBranch elseBranch, nodes => by
    simp only [Expr.bare, placeExpr, placeExpr_bare condition, placeExpr_bare thenBranch,
      placeExpr_bare elseBranch, place_bare _ r]
  | .trailed value abandoned, nodes => by
    simp only [Expr.bare, placeExpr, placeExpr_bare value, placeAbandoned_bare abandoned]

theorem placeAbandoned_bare : ∀ (pieces : List Expr) (nodes : Nodes),
    placeAbandoned (abandonedBare pieces) (nodes.map SyntaxNode.bare) =
      (placeAbandoned pieces nodes).map SyntaxNode.bare
  | [], _ => rfl
  | piece :: pieces, nodes => by
    simp only [abandonedBare, placeAbandoned, placeExpr_bare piece, placeAbandoned_bare pieces]

theorem placeArgument_bare : ∀ (argument : Argument) (nodes : Nodes),
    placeArgument argument.bare (nodes.map SyntaxNode.bare) =
      ((placeArgument argument nodes).1, (placeArgument argument nodes).2.map SyntaxNode.bare)
  | .given value, nodes => by
    simp only [Argument.bare, placeArgument, placeExpr_bare value]
  | .broken abandoned, nodes => by
    simp only [Argument.bare, placeArgument, placeAbandoned_bare abandoned]

theorem placeArguments_bare : ∀ (arguments : List Argument) (nodes : Nodes),
    placeArguments (argumentsBare arguments) (nodes.map SyntaxNode.bare) =
      ((placeArguments arguments nodes).1, (placeArguments arguments nodes).2.map SyntaxNode.bare)
  | [], _ => rfl
  | argument :: more, nodes => by
    simp only [argumentsBare, placeArguments, placeArgument_bare argument, placeArguments_bare more]

theorem placeSegment_bare : ∀ (segment : Segment) (nodes : Nodes),
    placeSegment segment.bare (nodes.map SyntaxNode.bare) =
      ((placeSegment segment nodes).1, (placeSegment segment nodes).2.map SyntaxNode.bare)
  | .name r v, nodes => place_bare _ r nodes
  | .call r v arguments, nodes => by
    simp only [Segment.bare, placeSegment, placeArguments_bare arguments, place_bare _ r]

theorem placeSegments_bare : ∀ (segments : List Segment) (nodes : Nodes),
    placeSegments (segmentsBare segments) (nodes.map SyntaxNode.bare) =
      ((placeSegments segments nodes).1, (placeSegments segments nodes).2.map SyntaxNode.bare)
  | [], _ => rfl
  | segment :: more, nodes => by
    simp only [segmentsBare, placeSegments, placeSegment_bare segment, placeSegments_bare more]

end

theorem placePathSegments_bare (segments : List PathSegment) (nodes : Nodes) :
    placePathSegments (segments.map PathSegment.bare) (nodes.map SyntaxNode.bare) =
      ((placePathSegments segments nodes).1,
        (placePathSegments segments nodes).2.map SyntaxNode.bare) := by
  induction segments generalizing nodes with
  | nil => rfl
  | cons segment segments ih =>
    have kind : pathSegmentKind segment.bare = pathSegmentKind segment := by cases segment <;> rfl
    simp only [List.map_cons, placePathSegments, kind, segment.range_bare,
      place_bare _ segment.range, ih]

theorem placePath_bare (path : Path) (nodes : Nodes) :
    placePath path.bare (nodes.map SyntaxNode.bare) =
      ((placePath path nodes).1, (placePath path nodes).2.map SyntaxNode.bare) := by
  have segments : path.bare.segments = path.segments.map PathSegment.bare := rfl
  simp only [placePath, segments, placePathSegments_bare, path.range_bare, place_bare _ path.range]

theorem placeValue_bare (value : Value) (nodes : Nodes) :
    placeValue value.bare (nodes.map SyntaxNode.bare) =
      ((placeValue value nodes).1, (placeValue value nodes).2.map SyntaxNode.bare) := by
  cases value with
  | expression r body =>
    cases body with
    | none => exact place_bare _ r nodes
    | some body =>
      simp only [Value.bare, Option.map_some, placeValue, placeArgument_bare, place_bare _ r]
  | missing offset => exact place_bare _ (.emptyAt offset) nodes
  | _ => exact place_bare _ _ nodes

theorem placeSource_bare (source : CopySource) (nodes : Nodes) :
    placeSource source.bare (nodes.map SyntaxNode.bare) =
      ((placeSource source nodes).1, (placeSource source nodes).2.map SyntaxNode.bare) := by
  cases source with
  | path path => exact placePath_bare path nodes
  | missing offset => exact place_bare _ (.emptyAt offset) nodes

theorem placeOperation_bare (operation : Option Operation) (nodes : Nodes) :
    placeOperation? (operation.map Operation.bare) (nodes.map SyntaxNode.bare) =
      ((placeOperation? operation nodes).1,
        (placeOperation? operation nodes).2.map SyntaxNode.bare) := by
  cases operation with
  | none => rfl
  | some operation =>
    cases operation with
    | assign r value =>
      simp only [Option.map_some, Operation.bare, placeOperation?, placeOperation, placeValue_bare,
        place_bare _ r]
    | copy r source =>
      simp only [Option.map_some, Operation.bare, placeOperation?, placeOperation, placeSource_bare,
        place_bare _ r]
    | unset r =>
      simp only [Option.map_some, Operation.bare, placeOperation?, placeOperation, place_bare _ r]

mutual

theorem placeStatement_bare : ∀ (statement : Statement) (nodes : Nodes),
    placeStatement statement.bare (nodes.map SyntaxNode.bare) =
      ((placeStatement statement nodes).1, (placeStatement statement nodes).2.map SyntaxNode.bare)
  | .includeFile r path, nodes => place_bare _ r nodes
  | .object r path operation none, nodes => by
    simp only [Statement.bare, placeStatement, placePath_bare, placeOperation_bare, place_bare _ r]
  | .object r path operation (some block), nodes => by
    simp only [Statement.bare, placeStatement, placePath_bare, placeOperation_bare,
      placeStatements_bare block, place_bare _ r]

theorem placeStatements_bare : ∀ (statements : List Statement) (nodes : Nodes),
    placeStatements (statementsBare statements) (nodes.map SyntaxNode.bare) =
      ((placeStatements statements nodes).1,
        (placeStatements statements nodes).2.map SyntaxNode.bare)
  | [], _ => rfl
  | statement :: more, nodes => by
    simp only [statementsBare, placeStatements, placeStatement_bare statement,
      placeStatements_bare more]

end

theorem adopt_bare (nodes : Nodes) (parent : NodeId) (children : List NodeId) :
    adopt (nodes.map SyntaxNode.bare) parent children =
      (adopt nodes parent children).map SyntaxNode.bare := by
  induction children generalizing nodes with
  | nil => rfl
  | cons child children ih =>
    -- The parent is no place, so it may be named before or after the places are dropped.
    have named :
        (nodes.map SyntaxNode.bare).modify child (fun n => { n with parent := some parent }) =
          (nodes.modify child fun n => { n with parent := some parent }).map SyntaxNode.bare := by
      refine Array.ext (by simp) fun i _ _ => ?_
      simp only [Array.getElem_modify, Array.getElem_map]
      split <;> rfl
    rw [adopt, List.foldl_cons, named]
    exact ih _

theorem link_bare (nodes : Nodes) :
    link (nodes.map SyntaxNode.bare) = (link nodes).map SyntaxNode.bare := by
  rw [link, link, Array.size_map]
  refine List.foldl_hom (Array.map SyntaxNode.bare) fun linked id => ?_
  rw [Array.getElem?_map]
  cases nodes[id]? with
  | none => rfl
  | some node => exact adopt_bare linked id node.kind.children

/-- The tree of a template without places is its tree without ranges. -/
theorem bare_ofTemplate (template : Template) :
    (ofTemplate template).bare = ofTemplate template.bare := by
  have placed : placeStatements template.bare.statements #[] =
      ((placeStatements template.statements #[]).1,
        (placeStatements template.statements #[]).2.map SyntaxNode.bare) := by
    rw [← placeStatements_bare, Array.map_empty]
    rfl
  have root := place_bare (.fusionFile (placeStatements template.statements #[]).1)
    ⟨0, template.size⟩ (placeStatements template.statements #[]).2
  rw [ofTemplate, ofTemplate, placed]
  change _ = SyntaxTree.mk (link (place _ nowhere _).2) (some (place _ nowhere _).1)
  rw [root, link_bare]
  rfl

end SyntaxTree

end FusionAtlas
