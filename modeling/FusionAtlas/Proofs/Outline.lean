import FusionAtlas.SyntaxTree.OfTemplate
import Mathlib.Data.List.Forall2

/-!
Outlines of a syntax tree. An outline says of each node what it is, which bytes it covers and what
was placed before it on its behalf: its children, and pieces that no node lists. Main statement:
`SyntaxTree.ofTemplate_grows`, by which the nodes of a template are those of its outline, each
behind its parts.
-/

set_option autoImplicit false
set_option relaxedAutoImplicit false

namespace FusionAtlas.SyntaxTree

open FusionAtlas.Template

/-- A node with its parts in the order in which they are placed. The flag of a part tells whether
the node lists it as a child. -/
inductive Outline where
  | node (tag : NodeTag) (range : ByteRange) (parts : List (Bool × Outline))

/-- What is placed one after the other, each with its flag. -/
abbrev Parts := List (Bool × Outline)

namespace Outline

def tag : Outline → NodeTag
  | node tag _ _ => tag

def range : Outline → ByteRange
  | node _ range _ => range

def parts : Outline → Parts
  | node _ _ parts => parts

mutual

/-- Number of nodes below an outline's own. -/
def inner : Outline → Nat
  | node _ _ parts => countOf parts

/-- Number of nodes of some parts. -/
def countOf : List (Bool × Outline) → Nat
  | [] => 0
  | (_, outline) :: more => outline.inner + 1 + countOf more

end

/-- Numbers of the listed parts when `base` nodes stand before them. -/
def idsOf (base : Nat) : Parts → List NodeId
  | [] => []
  | (listed, outline) :: more =>
    (if listed then [base + outline.inner] else []) ++ idsOf (base + outline.inner + 1) more

/-- The listed parts. -/
def listedOf : Parts → List Outline
  | [] => []
  | (listed, outline) :: more => (if listed then [outline] else []) ++ listedOf more

/-- The same parts, none of them listed. -/
def loosen (parts : Parts) : Parts := parts.map fun part => (false, part.2)

end Outline

open Outline (countOf idsOf listedOf loosen)

/-- An outline in its place: `base` nodes stand before those of its parts. -/
structure Spot where
  outline : Outline
  base : Nat

namespace Spot

def children (spot : Spot) : List NodeId := idsOf spot.base spot.outline.parts

/-- The number of the node itself. -/
def id (spot : Spot) : Nat := spot.base + spot.outline.inner

end Spot

mutual

/-- The places of an outline's nodes in the order of their numbers. -/
def spots (base : Nat) : Outline → List Spot
  | .node tag range parts => spotsOf base parts ++ [⟨.node tag range parts, base⟩]

def spotsOf (base : Nat) : List (Bool × Outline) → List Spot
  | [] => []
  | (_, outline) :: more => spots base outline ++ spotsOf (base + outline.inner + 1) more

end

mutual

theorem length_spots (base : Nat) : ∀ outline : Outline,
    (spots base outline).length = outline.inner + 1
  | .node tag range parts => by
    rw [spots, List.length_append, length_spotsOf base parts, Outline.inner, List.length_singleton]

theorem length_spotsOf (base : Nat) : ∀ parts : List (Bool × Outline),
    (spotsOf base parts).length = countOf parts
  | [] => rfl
  | (_, outline) :: more => by
    rw [spotsOf, List.length_append, length_spots base outline, length_spotsOf _ more,
      Outline.countOf]

end

theorem idsOf_append (base : Nat) (front behind : Parts) :
    idsOf base (front ++ behind) = idsOf base front ++ idsOf (base + countOf front) behind := by
  induction front generalizing base with
  | nil => rfl
  | cons part front ih =>
    obtain ⟨listed, outline⟩ := part
    rw [List.cons_append, Outline.idsOf, Outline.idsOf, ih, List.append_assoc, Outline.countOf,
      show base + (outline.inner + 1 + countOf front) = base + outline.inner + 1 + countOf front by
        omega]

theorem spotsOf_append (base : Nat) (front behind : Parts) :
    spotsOf base (front ++ behind) = spotsOf base front ++ spotsOf (base + countOf front) behind := by
  induction front generalizing base with
  | nil => rw [List.nil_append, Outline.countOf, spotsOf, List.nil_append, Nat.add_zero]
  | cons part front ih =>
    obtain ⟨listed, outline⟩ := part
    rw [List.cons_append, spotsOf, spotsOf, ih, List.append_assoc, Outline.countOf,
      show base + (outline.inner + 1 + countOf front) = base + outline.inner + 1 + countOf front by
        omega]

theorem idsOf_loosen (base : Nat) (parts : Parts) : idsOf base (loosen parts) = [] := by
  induction parts generalizing base with
  | nil => rfl
  | cons part parts ih => exact ih _

theorem spotsOf_loosen (base : Nat) (parts : Parts) :
    spotsOf base (loosen parts) = spotsOf base parts := by
  induction parts generalizing base with
  | nil => rfl
  | cons part parts ih =>
    obtain ⟨listed, outline⟩ := part
    change spots base outline ++ spotsOf _ (loosen parts) = _
    rw [ih, spotsOf]

end FusionAtlas.SyntaxTree

namespace FusionAtlas.Template

open FusionAtlas.SyntaxTree (Outline Parts)
open FusionAtlas.SyntaxTree.Outline (loosen)

mutual

/-- The parts an expression gives: one listed node, and behind it what was abandoned. -/
def Expr.parts : Expr → Parts
  | .text r _ => [(true, .node .literalString r [])]
  | .number r _ => [(true, .node .literalNumber r [])]
  | .boolean r _ => [(true, .node .literalBoolean r [])]
  | .null r => [(true, .node .literalNull r [])]
  | .array r items => [(true, .node .literalArray r (argumentsParts items))]
  | .chain r segments => [(true, .node .objectNode r (segmentsParts segments))]
  | .negation r operand => [(true, .node .not r operand.parts)]
  | .operation r left _ right => [(true, .node .operation r (left.parts ++ right.parts))]
  | .ternary r condition thenBranch elseBranch =>
    [(true, .node .ternary r (condition.parts ++ thenBranch.parts ++ elseBranch.parts))]
  | .trailed value abandoned => value.parts ++ abandonedParts abandoned

/-- Abandoned pieces, none of them listed. -/
def abandonedParts : List Expr → Parts
  | [] => []
  | piece :: pieces => loosen piece.parts ++ abandonedParts pieces

def Argument.parts : Argument → Parts
  | .given value => value.parts
  | .broken abandoned => abandonedParts abandoned

def argumentsParts : List Argument → Parts
  | [] => []
  | argument :: more => argument.parts ++ argumentsParts more

def Segment.parts : Segment → Parts
  | .name r _ => [(true, .node .objectPathNode r [])]
  | .call r _ args => [(true, .node .objectFunctionPathNode r (argumentsParts args))]

def segmentsParts : List Segment → Parts
  | [] => []
  | segment :: more => segment.parts ++ segmentsParts more

end

def PathSegment.outline (segment : PathSegment) : Outline :=
  .node (SyntaxTree.pathSegmentKind segment).tag segment.range []

def Path.outline (path : Path) : Outline :=
  .node .objectPath path.range (path.segments.map fun segment => (true, segment.outline))

def Value.outline : Value → Outline
  | .text r _ => .node .stringValue r []
  | .number r _ => .node .numberValue r []
  | .boolean r _ => .node .boolValue r []
  | .null r => .node .nullValue r []
  | .component r _ => .node .fusionObjectValue r []
  | .embedded r _ => .node .dslExpression r []
  | .expression r none => .node .eelExpression r []
  | .expression r (some body) => .node .eelExpression r body.parts
  | .missing offset => .node .error (.emptyAt offset) []

def CopySource.outline : CopySource → Outline
  | .path found => found.outline
  | .missing offset => .node .error (.emptyAt offset) []

def Operation.outline : Operation → Outline
  | .assign r value => .node .valueAssignment r [(true, value.outline)]
  | .copy r source => .node .valueCopy r [(true, source.outline)]
  | .unset r => .node .valueUnset r []

/-- The path of an object statement, and its operation if there is one. -/
def headParts (path : Path) (operation : Option Operation) : Parts :=
  (true, path.outline) :: operation.toList.map fun found => (true, found.outline)

mutual

def Statement.outline : Statement → Outline
  | .includeFile r _ => .node .includeFile r []
  | .object r path operation none => .node .objectStatement r (headParts path operation)
  | .object r path operation (some block) =>
    .node .objectStatement r (headParts path operation ++ statementsParts block)

def statementsParts : List Statement → Parts
  | [] => []
  | statement :: more => (true, statement.outline) :: statementsParts more

end

end FusionAtlas.Template

namespace FusionAtlas

/-- The outline of a whole template. -/
def Template.outline (template : Template) : SyntaxTree.Outline :=
  .node .fusionFile ⟨0, template.size⟩ (Template.statementsParts template.statements)

namespace SyntaxTree

open FusionAtlas.Template
open Outline (countOf idsOf listedOf loosen)

/-- A node is what an outline says at a place, not yet linked to a parent. -/
structure Shows (node : SyntaxNode) (spot : Spot) : Prop where
  tag : node.kind.tag = spot.outline.tag
  range : node.range = spot.outline.range
  children : node.kind.children = spot.children
  parent : node.parent = none

/-- Placing some parts behind `nodes` gives the nodes `after`, and the listed parts are numbered
`ids`. -/
structure Grows (nodes : Nodes) (parts : Parts) (ids : List NodeId) (after : Nodes) : Prop where
  shows : ∃ new, after.toList = nodes.toList ++ new ∧
    List.Forall₂ Shows new (spotsOf nodes.size parts)
  ids : ids = idsOf nodes.size parts

namespace Grows

variable {nodes mid after : Nodes} {parts more : Parts} {ids others : List NodeId}

theorem size (grows : Grows nodes parts ids after) : after.size = nodes.size + countOf parts := by
  obtain ⟨new, whole, shows⟩ := grows.shows
  have length := congrArg List.length whole
  rw [List.length_append, shows.length_eq, length_spotsOf] at length
  exact length

theorem nil (nodes : Nodes) : Grows nodes [] [] nodes :=
  ⟨⟨[], (List.append_nil _).symm, List.Forall₂.nil⟩, rfl⟩

theorem append (first : Grows nodes parts ids mid) (second : Grows mid more others after) :
    Grows nodes (parts ++ more) (ids ++ others) after := by
  have size := first.size
  obtain ⟨new, whole, shows⟩ := first.shows
  obtain ⟨newer, again, alike⟩ := second.shows
  constructor
  · refine ⟨new ++ newer, ?_, ?_⟩
    · rw [again, whole, List.append_assoc]
    · rw [spotsOf_append, ← size]
      exact List.rel_append shows alike
  · rw [first.ids, second.ids, idsOf_append, size]

/-- A node behind its parts. -/
theorem node (grows : Grows nodes parts ids mid) {kind : NodeKind} {tag : NodeTag}
    (range : ByteRange) (tagged : kind.tag = tag) (children : kind.children = ids) :
    Grows nodes [(true, .node tag range parts)] [(place kind range mid).1]
      (place kind range mid).2 := by
  have size := grows.size
  obtain ⟨new, whole, shows⟩ := grows.shows
  constructor
  · refine ⟨new ++ [⟨kind, range, none⟩], ?_, ?_⟩
    · rw [place, Array.toList_push, whole, List.append_assoc]
    · rw [spotsOf, spotsOf, List.append_nil, spots]
      refine List.rel_append shows (List.Forall₂.cons ⟨tagged, rfl, ?_, rfl⟩ List.Forall₂.nil)
      rw [children, grows.ids]
      rfl
  · change [mid.size] = [nodes.size + countOf parts]
    rw [size]

/-- A node without parts. -/
theorem leaf (nodes : Nodes) {kind : NodeKind} {tag : NodeTag} (range : ByteRange)
    (tagged : kind.tag = tag) (children : kind.children = []) :
    Grows nodes [(true, .node tag range [])] [(place kind range nodes).1]
      (place kind range nodes).2 :=
  (nil nodes).node range tagged children

theorem loosen (grows : Grows nodes parts ids after) :
    Grows nodes (Outline.loosen parts) [] after := by
  obtain ⟨shows, -⟩ := grows
  refine ⟨?_, (idsOf_loosen _ parts).symm⟩
  rw [spotsOf_loosen]
  exact shows

end Grows

mutual

theorem placeExpr_grows (nodes : Nodes) : ∀ e : Expr,
    Grows nodes e.parts [(placeExpr e nodes).1] (placeExpr e nodes).2
  | .text r _ | .number r _ | .boolean r _ | .null r => Grows.leaf nodes r rfl rfl
  | .array r items => (placeArguments_grows nodes items).node r rfl rfl
  | .chain r segments => (placeSegments_grows nodes segments).node r rfl rfl
  | .negation r operand => (placeExpr_grows nodes operand).node r rfl rfl
  | .operation r left _ right =>
    have first := placeExpr_grows nodes left
    have second := placeExpr_grows _ right
    (first.append second).node r rfl rfl
  | .ternary r condition thenBranch elseBranch =>
    have first := placeExpr_grows nodes condition
    have second := placeExpr_grows _ thenBranch
    have third := placeExpr_grows _ elseBranch
    ((first.append second).append third).node r rfl rfl
  | .trailed value abandoned =>
    (placeExpr_grows nodes value).append (placeAbandoned_grows _ abandoned)

theorem placeAbandoned_grows (nodes : Nodes) : ∀ pieces : List Expr,
    Grows nodes (abandonedParts pieces) [] (placeAbandoned pieces nodes)
  | [] => Grows.nil nodes
  | piece :: pieces =>
    (placeExpr_grows nodes piece).loosen.append (placeAbandoned_grows _ pieces)

theorem placeArgument_grows (nodes : Nodes) : ∀ argument : Argument,
    Grows nodes argument.parts (placeArgument argument nodes).1.toList
      (placeArgument argument nodes).2
  | .given value => placeExpr_grows nodes value
  | .broken abandoned => placeAbandoned_grows nodes abandoned

theorem placeArguments_grows (nodes : Nodes) : ∀ arguments : List Argument,
    Grows nodes (argumentsParts arguments) (placeArguments arguments nodes).1
      (placeArguments arguments nodes).2
  | [] => Grows.nil nodes
  | argument :: more =>
    (placeArgument_grows nodes argument).append (placeArguments_grows _ more)

theorem placeSegment_grows (nodes : Nodes) : ∀ segment : Segment,
    Grows nodes segment.parts [(placeSegment segment nodes).1] (placeSegment segment nodes).2
  | .name r _ => Grows.leaf nodes r rfl rfl
  | .call r _ args => (placeArguments_grows nodes args).node r rfl rfl

theorem placeSegments_grows (nodes : Nodes) : ∀ segments : List Segment,
    Grows nodes (segmentsParts segments) (placeSegments segments nodes).1
      (placeSegments segments nodes).2
  | [] => Grows.nil nodes
  | segment :: more => (placeSegment_grows nodes segment).append (placeSegments_grows _ more)

end

theorem placePathSegments_grows (nodes : Nodes) (segments : List PathSegment) :
    Grows nodes (segments.map fun segment => (true, segment.outline))
      (placePathSegments segments nodes).1 (placePathSegments segments nodes).2 := by
  induction segments generalizing nodes with
  | nil => exact Grows.nil nodes
  | cons segment more ih =>
    have childless : (pathSegmentKind segment).children = [] := by cases segment <;> rfl
    exact (Grows.leaf nodes segment.range rfl childless).append (ih _)

theorem placePath_grows (nodes : Nodes) (path : Path) :
    Grows nodes [(true, path.outline)] [(placePath path nodes).1] (placePath path nodes).2 :=
  (placePathSegments_grows nodes path.segments).node path.range rfl rfl

theorem placeValue_grows (nodes : Nodes) (value : Value) :
    Grows nodes [(true, value.outline)] [(placeValue value nodes).1] (placeValue value nodes).2 := by
  cases value with
  | expression r body =>
    cases body with
    | none => exact Grows.leaf nodes r rfl rfl
    | some body => exact (placeArgument_grows nodes body).node r rfl rfl
  | _ => exact Grows.leaf nodes _ rfl rfl

theorem placeSource_grows (nodes : Nodes) (source : CopySource) :
    Grows nodes [(true, source.outline)] [(placeSource source nodes).1]
      (placeSource source nodes).2 := by
  cases source with
  | path path => exact placePath_grows nodes path
  | missing offset => exact Grows.leaf nodes _ rfl rfl

theorem placeOperation_grows (nodes : Nodes) (operation : Operation) :
    Grows nodes [(true, operation.outline)] [(placeOperation operation nodes).1]
      (placeOperation operation nodes).2 := by
  cases operation with
  | assign r value => exact (placeValue_grows nodes value).node r rfl rfl
  | copy r source => exact (placeSource_grows nodes source).node r rfl rfl
  | unset r => exact Grows.leaf nodes r rfl rfl

/-- The path and the operation of an object statement. -/
theorem placeHead_grows (nodes : Nodes) (path : Path) (operation : Option Operation) :
    Grows nodes (headParts path operation)
      ((placePath path nodes).1 :: (placeOperation? operation (placePath path nodes).2).1.toList)
      (placeOperation? operation (placePath path nodes).2).2 := by
  have first := placePath_grows nodes path
  cases operation with
  | none => exact first
  | some operation => exact first.append (placeOperation_grows _ operation)

mutual

theorem placeStatement_grows (nodes : Nodes) : ∀ statement : Statement,
    Grows nodes [(true, statement.outline)] [(placeStatement statement nodes).1]
      (placeStatement statement nodes).2
  | .includeFile r _ => Grows.leaf nodes r rfl rfl
  | .object r path operation none =>
    (placeHead_grows nodes path operation).node r rfl (by
      rw [NodeKind.children, Option.getD_none, List.append_nil])
  | .object r path operation (some block) =>
    have first := placeHead_grows nodes path operation
    have second := placeStatements_grows _ block
    (first.append second).node r rfl rfl

theorem placeStatements_grows (nodes : Nodes) : ∀ statements : List Statement,
    Grows nodes (statementsParts statements) (placeStatements statements nodes).1
      (placeStatements statements nodes).2
  | [] => Grows.nil nodes
  | statement :: more => (placeStatement_grows nodes statement).append (placeStatements_grows _ more)

end

/-- The tree of a template is what its outline says, every child linked to its parent. -/
theorem ofTemplate_grows (template : Template) :
    ∃ nodes : Nodes, List.Forall₂ Shows nodes.toList (spots 0 template.outline) ∧
      ofTemplate template = ⟨link nodes, some template.outline.inner⟩ := by
  let placed := placeStatements template.statements #[]
  have grows : Grows #[] (statementsParts template.statements) placed.1 placed.2 :=
    placeStatements_grows #[] template.statements
  have whole : Grows #[] [(true, template.outline)] _
      (place (.fusionFile placed.1) ⟨0, template.size⟩ placed.2).2 :=
    grows.node ⟨0, template.size⟩ rfl rfl
  obtain ⟨⟨new, same, shows⟩, ids⟩ := whole
  rw [spotsOf, spotsOf, List.append_nil] at shows
  refine ⟨(place (.fusionFile placed.1) ⟨0, template.size⟩ placed.2).2, ?_, ?_⟩
  · rw [same]
    exact shows
  · have root : placed.2.size = template.outline.inner := by
      rw [grows.size]
      exact Nat.zero_add _
    rw [← root]
    rfl

end SyntaxTree

end FusionAtlas
