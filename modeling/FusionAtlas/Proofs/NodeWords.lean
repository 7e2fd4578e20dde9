import FusionAtlas.Proofs.ReadWords
import FusionAtlas.Proofs.SignificantTokens
import FusionAtlas.Proofs.StatementBlocks
import FusionAtlas.Resolution.Literals

/-!
What nodes stand for is written where they stand. In the tree of any text, whatever a node says was read from
tokens; the range of a string is that of its value between two quotes, and the range of a call starts with the
name of the method. Main statements: `readFrom_of_node`, `parseTemplate_string` and `parseTemplate_call`.
-/

set_option autoImplicit false
set_option relaxedAutoImplicit false

namespace FusionAtlas

/-- The link that a node is in a chain. -/
def SyntaxTree.linkAt (tree : SyntaxTree) (id : NodeId) : ChainLink :=
  match tree.kind? id with
  | some (.objectPathNode name) => ⟨tree.range id, name, false⟩
  | some (.objectFunctionPathNode name _) => ⟨tree.range id, name, true⟩
  | _ => ⟨tree.range id, "", false⟩

/-- What a node of the kind says in a tree, if it covers the range. -/
def NodeKind.word? (tree : SyntaxTree) (range : ByteRange) : NodeKind → Option Word
  | stringValue value | literalString value => some (.string range value)
  | numberValue value | literalNumber value => some (.number range value)
  | fusionObjectValue name => some (.component range name)
  | dslExpression identifier => some (.embedded range identifier)
  | includeFile path => some (.includeLine range path)
  | pathSegment identifier => some (.segment range identifier)
  | metaPathSegment identifier => some (.property range identifier)
  | prototypePathSegment identifier => some (.prototype range identifier)
  | operation left text right => some (.operator (tree.range left) text (tree.range right))
  | objectPathNode name => some (.links range [⟨range, name, false⟩])
  | objectFunctionPathNode name _ => some (.links range [⟨range, name, true⟩])
  | objectNode path => some (.links range (path.map tree.linkAt))
  | _ => none

namespace SyntaxTree

open FusionAtlas.Template

/-- What a node says. -/
def word? (tree : SyntaxTree) (id : NodeId) : Option Word :=
  (tree.kind? id).bind fun kind => kind.word? tree (tree.range id)

/-- The tree has the nodes under their numbers, whatever their parents are. -/
def Carries (tree : SyntaxTree) (nodes : Nodes) : Prop :=
  ∀ {id : NodeId} {node : SyntaxNode}, nodes[id]? = some node →
    tree.kind? id = some node.kind ∧ tree.range id = node.range

/-- Nodes were placed behind the others. In a tree that has them all, these say nothing but the words. -/
structure Adds (nodes : Nodes) (words : List Word) (after : Nodes) : Prop where
  kept : ∀ {id : NodeId} {node : SyntaxNode}, nodes[id]? = some node → after[id]? = some node
  words : ∀ {tree : SyntaxTree}, tree.Carries after → ∀ {id : NodeId}, nodes.size ≤ id → id < after.size →
    ∀ word ∈ tree.word? id, word ∈ words

theorem place_last (kind : NodeKind) (range : ByteRange) (nodes : Nodes) :
    (place kind range nodes).2[(place kind range nodes).1]? = some ⟨kind, range, none⟩ :=
  Array.getElem?_push_size

theorem Carries.word? {tree : SyntaxTree} {nodes : Nodes} (carries : tree.Carries nodes) {id : NodeId}
    {node : SyntaxNode} (here : nodes[id]? = some node) :
    tree.word? id = node.kind.word? tree node.range := by
  obtain ⟨kind, range⟩ := carries here
  rw [SyntaxTree.word?, kind, range]
  rfl

namespace Adds

variable {nodes mid after : Nodes} {words more : List Word} {kind : NodeKind} {range : ByteRange}

theorem carries (adds : Adds nodes words after) {tree : SyntaxTree} (all : tree.Carries after) :
    tree.Carries nodes := fun here => all (adds.kept here)

theorem nil (nodes : Nodes) : Adds nodes [] nodes :=
  ⟨id, fun _ _ old new => absurd new (Nat.not_lt.mpr old)⟩

theorem append (first : Adds nodes words mid) (second : Adds mid more after) :
    Adds nodes (words ++ more) after := by
  refine ⟨fun here => second.kept (first.kept here), ?_⟩
  intro tree carries id old new word said
  by_cases early : id < mid.size
  · exact List.mem_append_left _ (first.words (second.carries carries) old early word said)
  · exact List.mem_append_right _ (second.words carries (Nat.le_of_not_lt early) new word said)

/-- One more node, behind its parts. -/
theorem node (adds : Adds nodes words mid)
    (said : ∀ {tree : SyntaxTree}, tree.Carries mid → ∀ word ∈ kind.word? tree range, word ∈ more) :
    Adds nodes (words ++ more) (place kind range mid).2 := by
  have kept {id : NodeId} {node : SyntaxNode} (here : mid[id]? = some node) :
      (place kind range mid).2[id]? = some node := by
    obtain ⟨bound, rfl⟩ := Array.getElem?_eq_some_iff.mp here
    exact Array.getElem?_push_lt bound
  refine adds.append ⟨kept, ?_⟩
  intro tree carries id old new word spoken
  change id < (mid.push _).size at new
  rw [Array.size_push] at new
  obtain rfl : id = mid.size := Nat.le_antisymm (Nat.le_of_lt_succ new) old
  have here : (place kind range mid).2[mid.size]? = some ⟨kind, range, none⟩ := place_last ..
  rw [carries.word? here] at spoken
  exact said (fun here => carries (kept here)) word spoken

/-- One more node with a word of its own, which does not depend on others. -/
theorem leaf (adds : Adds nodes words mid) {word : Word}
    (said : ∀ tree, kind.word? tree range = some word) :
    Adds nodes (words ++ [word]) (place kind range mid).2 := by
  refine adds.node fun _ other spoken => ?_
  rw [said] at spoken
  exact List.mem_singleton.mpr (Option.some.inj spoken).symm

/-- One more node without a word of its own, behind its parts. -/
theorem silent (adds : Adds nodes words mid) (wordless : ∀ tree, kind.word? tree range = none) :
    Adds nodes words (place kind range mid).2 := by
  have placed : Adds nodes (words ++ []) (place kind range mid).2 := by
    refine adds.node fun _ word spoken => ?_
    rw [wordless] at spoken
    cases spoken
  rwa [List.append_nil] at placed

end Adds

/-- An expression that was placed has its number, with what was abandoned behind it. -/
theorem placeExpr_at (e : Expr) (nodes : Nodes) :
    ∃ kind, (placeExpr e nodes).2[(placeExpr e nodes).1]? = some ⟨kind, e.range, none⟩ := by
  cases e with
  | trailed value abandoned =>
    obtain ⟨kind, here⟩ := placeExpr_at value nodes
    exact ⟨kind, (placeAbandoned_grows _ abandoned).kept here⟩
  | _ => exact ⟨_, place_last ..⟩

theorem placeSegment_at (segment : Segment) (nodes : Nodes) {tree : SyntaxTree}
    (carries : tree.Carries (placeSegment segment nodes).2) :
    tree.linkAt (placeSegment segment nodes).1 = segment.link := by
  cases segment with
  | name r v =>
    obtain ⟨kind, range⟩ := carries (place_last (.objectPathNode v) r nodes)
    change tree.linkAt (place _ _ _).1 = _
    rw [linkAt, kind, range]
    rfl
  | call r v args =>
    obtain ⟨kind, range⟩ := carries (place_last (.objectFunctionPathNode v (placeArguments args nodes).1) r
      (placeArguments args nodes).2)
    change tree.linkAt (place _ _ _).1 = _
    rw [linkAt, kind, range]
    rfl

/-- The links that were placed are those of the chain. -/
theorem placeSegments_at (segments : List Segment) (nodes : Nodes) {tree : SyntaxTree}
    (carries : tree.Carries (placeSegments segments nodes).2) :
    (placeSegments segments nodes).1.map tree.linkAt = segments.map Segment.link := by
  induction segments generalizing nodes with
  | nil => rfl
  | cons segment more ih =>
    have first : tree.Carries (placeSegment segment nodes).2 := fun here =>
      carries ((placeSegments_grows _ more).kept here)
    exact congrArg₂ List.cons (placeSegment_at segment nodes first) (ih _ carries)

mutual

theorem placeExpr_adds (nodes : Nodes) : ∀ e : Expr, Adds nodes e.words (placeExpr e nodes).2
  | .text _ _ | .number _ _ => (Adds.nil nodes).leaf fun _ => rfl
  | .boolean _ _ | .null _ => (Adds.nil nodes).silent fun _ => rfl
  | .array _ items => (placeArguments_adds nodes items).silent fun _ => rfl
  | .chain _ segments => by
    refine (placeSegments_adds nodes segments).node fun carries word spoken => ?_
    rw [← placeSegments_at segments nodes carries]
    exact List.mem_singleton.mpr (Option.some.inj spoken).symm
  | .negation _ operand => (placeExpr_adds nodes operand).silent fun _ => rfl
  | .operation _ left text right => by
    have second := placeExpr_adds (placeExpr left nodes).2 right
    refine ((placeExpr_adds nodes left).append second).node fun carries word spoken => ?_
    obtain ⟨_, first⟩ := placeExpr_at left nodes
    obtain ⟨_, last⟩ := placeExpr_at right (placeExpr left nodes).2
    rw [NodeKind.word?, (carries (second.kept first)).2, (carries last).2] at spoken
    exact List.mem_singleton.mpr (Option.some.inj spoken).symm
  | .ternary _ condition thenBranch elseBranch =>
    (((placeExpr_adds nodes condition).append (placeExpr_adds _ thenBranch)).append
      (placeExpr_adds _ elseBranch)).silent fun _ => rfl
  | .trailed value abandoned =>
    (placeExpr_adds nodes value).append (placeAbandoned_adds _ abandoned)

theorem placeAbandoned_adds (nodes : Nodes) : ∀ pieces : List Expr,
    Adds nodes (abandonedWords pieces) (placeAbandoned pieces nodes)
  | [] => .nil nodes
  | piece :: pieces => (placeExpr_adds nodes piece).append (placeAbandoned_adds _ pieces)

theorem placeArgument_adds (nodes : Nodes) : ∀ argument : Argument,
    Adds nodes argument.words (placeArgument argument nodes).2
  | .given value => placeExpr_adds nodes value
  | .broken abandoned => placeAbandoned_adds nodes abandoned

theorem placeArguments_adds (nodes : Nodes) : ∀ arguments : List Argument,
    Adds nodes (argumentsWords arguments) (placeArguments arguments nodes).2
  | [] => .nil nodes
  | argument :: more => (placeArgument_adds nodes argument).append (placeArguments_adds _ more)

theorem placeSegment_adds (nodes : Nodes) : ∀ segment : Segment,
    Adds nodes segment.words (placeSegment segment nodes).2
  | .name _ _ => (Adds.nil nodes).leaf fun _ => rfl
  | .call _ _ args => (placeArguments_adds nodes args).leaf fun _ => rfl

theorem placeSegments_adds (nodes : Nodes) : ∀ segments : List Segment,
    Adds nodes (segmentsWords segments) (placeSegments segments nodes).2
  | [] => .nil nodes
  | segment :: more => (placeSegment_adds nodes segment).append (placeSegments_adds _ more)

end

theorem placePathSegments_adds (nodes : Nodes) (segments : List PathSegment) :
    Adds nodes (segments.map PathSegment.word) (placePathSegments segments nodes).2 := by
  induction segments generalizing nodes with
  | nil => exact .nil nodes
  | cons segment more ih =>
    have first : Adds nodes [segment.word] (place (pathSegmentKind segment) segment.range nodes).2 :=
      (Adds.nil nodes).leaf fun _ => by cases segment <;> rfl
    exact first.append (ih _)

theorem placePath_adds (nodes : Nodes) (path : Path) :
    Adds nodes path.words (placePath path nodes).2 :=
  (placePathSegments_adds nodes path.segments).silent fun _ => rfl

theorem placeValue_adds (nodes : Nodes) (value : Value) :
    Adds nodes value.words (placeValue value nodes).2 := by
  cases value with
  | boolean | null | missing => exact (Adds.nil nodes).silent fun _ => rfl
  | expression r body =>
    cases body with
    | none => exact (Adds.nil nodes).silent fun _ => rfl
    | some body => exact (placeArgument_adds nodes body).silent fun _ => rfl
  | _ => exact (Adds.nil nodes).leaf fun _ => rfl

theorem placeSource_adds (nodes : Nodes) (source : CopySource) :
    Adds nodes source.words (placeSource source nodes).2 := by
  cases source with
  | path path => exact placePath_adds nodes path
  | missing offset => exact (Adds.nil nodes).silent fun _ => rfl

theorem placeOperation_adds (nodes : Nodes) (operation : Operation) :
    Adds nodes operation.words (placeOperation operation nodes).2 := by
  cases operation with
  | assign r value => exact (placeValue_adds nodes value).silent fun _ => rfl
  | copy r source => exact (placeSource_adds nodes source).silent fun _ => rfl
  | unset r => exact (Adds.nil nodes).silent fun _ => rfl

theorem placeHead_adds (nodes : Nodes) (path : Path) (operation : Option Operation) :
    Adds nodes (headWords path operation)
      (placeOperation? operation (placePath path nodes).2).2 := by
  have first := placePath_adds nodes path
  cases operation with
  | none => exact first.append (.nil _)
  | some operation => exact first.append (placeOperation_adds _ operation)

mutual

theorem placeStatement_adds (nodes : Nodes) : ∀ statement : Statement,
    Adds nodes statement.words (placeStatement statement nodes).2
  | .includeFile _ _ => (Adds.nil nodes).leaf fun _ => rfl
  | .object _ path operation none => (placeHead_adds nodes path operation).silent fun _ => rfl
  | .object _ path operation (some block) =>
    ((placeHead_adds nodes path operation).append (placeStatements_adds _ block)).silent fun _ => rfl

theorem placeStatements_adds (nodes : Nodes) : ∀ statements : List Statement,
    Adds nodes (statementsWords statements) (placeStatements statements nodes).2
  | [] => .nil nodes
  | statement :: more => (placeStatement_adds nodes statement).append (placeStatements_adds _ more)

end

/-- What the nodes say is what the template says. -/
theorem word_of_node {template : FusionAtlas.Template} {id : NodeId} {word : Word}
    (said : (ofTemplate template).word? id = some word) :
    word ∈ statementsWords template.statements := by
  let placed := placeStatements template.statements #[]
  let nodes : Nodes := (place (.fusionFile placed.1) ⟨0, template.size⟩ placed.2).2
  have adds : Adds #[] (statementsWords template.statements) nodes :=
    (placeStatements_adds #[] template.statements).silent fun _ => rfl
  have carries : (ofTemplate template).Carries nodes := by
    intro id node here
    have kind : (link nodes)[id]?.map (·.kind) = nodes[id]?.map (·.kind) := kind_link nodes id
    have range : (link nodes)[id]?.map (·.range) = nodes[id]?.map (·.range) :=
      map_link (fun _ _ => rfl) nodes id
    rw [here] at kind range
    exact ⟨kind, congrArg (·.getD (.emptyAt 0)) range⟩
  obtain ⟨kind, found, -⟩ := Option.bind_eq_some_iff.mp said
  have placed : nodes[id]?.map (·.kind) = some kind := (kind_link nodes id).symm.trans found
  obtain ⟨node, here, -⟩ := Option.map_eq_some_iff.mp placed
  exact adds.words carries (Nat.zero_le id) (Array.getElem?_eq_some_iff.mp here).1 word said

end SyntaxTree

open Attachment (stringText?)
open Text (StandsAt byteSize)

variable {text value name : String} {id : NodeId} {args : List NodeId}

/-- Whatever a node says was read from the tokens of the text. -/
theorem readFrom_of_node {word : Word} (said : (parseTemplate text).tree.word? id = some word) :
    word.ReadFrom (.ofText text) (significantTokens text) :=
  parseTemplate_words text word (SyntaxTree.word_of_node said)

theorem liesIn_range (text : String) (id : NodeId) :
    ((parseTemplate text).tree.range id).LiesIn text.toList := by
  by_cases present : id < (parseTemplate text).tree.size
  · exact (parseTemplate_nested text).1.lies id present
  · have missing : (parseTemplate text).tree.nodes[id]? = none :=
      Array.getElem?_eq_none (Nat.le_of_not_lt present)
    rw [SyntaxTree.range, missing]
    exact ⟨Nat.le_refl _, .zero _, .zero _⟩

/-- A string is written between two quotes. -/
theorem parseTemplate_string
    (string : ((parseTemplate text).tree.kind? id).bind stringText? = some value) :
    let range := (parseTemplate text).tree.range id
    ∃ quote, (quote = '\'' ∨ quote = '"') ∧
      StandsAt text.toList (quote :: (value.toList ++ [quote])) range.start ∧
      range.stop = range.start + byteSize (quote :: (value.toList ++ [quote])) := by
  intro range
  have said : (parseTemplate text).tree.word? id = some (.string range value) := by
    obtain ⟨kind, found, reads⟩ := Option.bind_eq_some_iff.mp string
    rw [SyntaxTree.word?, found]
    unfold stringText? at reads
    split at reads <;> simp_all [NodeKind.word?, range]
  obtain ⟨t, listed, isString, covers, rfl⟩ := readFrom_of_node said
  have member := mem_tokenize_of_significant listed
  obtain ⟨quote, inner, ascii, spelled⟩ := Token.Lexer.exists_quoted member isString
  have unquoted : (Template.unquote t.text).toList = inner := by
    simp [Template.unquote, spelled]
  rw [covers, unquoted]
  refine ⟨quote, ascii, ?_⟩
  rw [← spelled]
  exact ⟨(inPlace_of_mem_tokenize member).standsAt, rfl⟩

/-- A call starts with the name of the method. -/
theorem parseTemplate_call
    (call : (parseTemplate text).tree.kind? id = some (.objectFunctionPathNode name args)) :
    let range := (parseTemplate text).tree.range id
    StandsAt text.toList name.toList range.start ∧
      range.start + byteSize name.toList ≤ range.stop := by
  intro range
  have said : (parseTemplate text).tree.word? id = some (.links range [⟨range, name, true⟩]) := by
    rw [SyntaxTree.word?, call]
    rfl
  obtain ⟨t, ts, suffix, -, lead⟩ := readFrom_of_node said
  obtain ⟨word, opening, behind, same, -, named, start, -, inside⟩ := lead.opened rfl
  rw [same] at suffix
  change name = word.text at named
  change range.start = word.start at start
  change opening.stop ≤ range.stop at inside
  have apart : word.stop ≤ opening.start :=
    List.rel_of_pairwise_cons ((pairwise_significant text).sublist suffix.sublist) List.mem_cons_self
  have inPlace := inPlace_of_significant (suffix.subset List.mem_cons_self)
  have next := inPlace_of_significant (suffix.subset (List.mem_cons_of_mem word List.mem_cons_self))
  rw [start, named]
  refine ⟨inPlace.standsAt, ?_⟩
  exact Nat.le_trans apart (Nat.le_trans (Nat.le_of_lt next.lt) inside)

end FusionAtlas
