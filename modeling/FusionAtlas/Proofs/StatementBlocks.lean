import FusionAtlas.Proofs.StatementLayout
import FusionAtlas.TemplateFile.Components

/-!
Where object statements stand. A template is read from the leaves up, and what is abandoned on the way
belongs to no node; still every object statement belongs to the top of the template or to the block of
another, and begins with a path that covers something. Main statements:
`SyntaxTree.mem_top_or_blockOf` and `parseTemplate_begins`.
-/

set_option autoImplicit false
set_option relaxedAutoImplicit false

namespace FusionAtlas.Template

open FusionAtlas.SyntaxTree (Outline Parts)
open FusionAtlas.SyntaxTree.Outline (loosen nodesOf listedOf nodesOf_append nodesOf_loosen nodesOf_singleton)
open Cursor (Sound)

/-- No object statement is among the parts or below them. -/
def StatementFree (parts : Parts) : Prop := ∀ outline ∈ nodesOf parts, outline.tag ≠ .objectStatement

namespace StatementFree

variable {front behind parts : Parts}

theorem nil : StatementFree [] := List.forall_mem_nil _

theorem append (first : StatementFree front) (second : StatementFree behind) :
    StatementFree (front ++ behind) := by
  rw [StatementFree, nodesOf_append]
  exact List.forall_mem_append.mpr ⟨first, second⟩

theorem node {listed : Bool} {tag : NodeTag} {range : ByteRange} (other : tag ≠ .objectStatement)
    (free : StatementFree parts) : StatementFree [(listed, .node tag range parts)] := by
  rw [StatementFree, nodesOf_singleton]
  exact List.forall_mem_append.mpr ⟨free, List.forall_mem_singleton.mpr other⟩

theorem loosen (free : StatementFree parts) : StatementFree (Outline.loosen parts) := by
  rw [StatementFree, nodesOf_loosen]
  exact free

end StatementFree

mutual

/-- Expressions hold no statements, and what is abandoned while one is read is an expression. -/
theorem Expr.statementFree : ∀ e : Expr, StatementFree e.parts
  | .text _ _ | .number _ _ | .boolean _ _ | .null _ => .node nofun .nil
  | .array _ items => .node nofun (argumentsParts_statementFree items)
  | .chain _ segments => .node nofun (segmentsParts_statementFree segments)
  | .negation _ operand => .node nofun operand.statementFree
  | .operation _ left _ right => .node nofun (left.statementFree.append right.statementFree)
  | .ternary _ condition thenBranch elseBranch =>
    .node nofun ((condition.statementFree.append thenBranch.statementFree).append
      elseBranch.statementFree)
  | .trailed value abandoned => value.statementFree.append (abandonedParts_statementFree abandoned)

theorem abandonedParts_statementFree : ∀ pieces : List Expr, StatementFree (abandonedParts pieces)
  | [] => .nil
  | piece :: pieces => piece.statementFree.loosen.append (abandonedParts_statementFree pieces)

theorem Argument.statementFree : ∀ argument : Argument, StatementFree argument.parts
  | .given value => value.statementFree
  | .broken abandoned => abandonedParts_statementFree abandoned

theorem argumentsParts_statementFree : ∀ items : List Argument, StatementFree (argumentsParts items)
  | [] => .nil
  | argument :: more => argument.statementFree.append (argumentsParts_statementFree more)

theorem Segment.statementFree : ∀ segment : Segment, StatementFree segment.parts
  | .name _ _ => .node nofun .nil
  | .call _ _ args => .node nofun (argumentsParts_statementFree args)

theorem segmentsParts_statementFree : ∀ segments : List Segment, StatementFree (segmentsParts segments)
  | [] => .nil
  | segment :: more => segment.statementFree.append (segmentsParts_statementFree more)

end

theorem Path.statementFree (path : Path) : StatementFree [(true, path.outline)] := by
  refine .node nofun ?_
  induction path.segments with
  | nil => exact .nil
  | cons segment more ih =>
    have other : (SyntaxTree.pathSegmentKind segment).tag ≠ .objectStatement := by
      cases segment <;> exact nofun
    exact (StatementFree.node other .nil).append ih

theorem Value.statementFree (value : Value) : StatementFree [(true, value.outline)] := by
  cases value with
  | expression range body =>
    cases body with
    | none => exact .node nofun .nil
    | some body => exact .node nofun body.statementFree
  | _ => exact .node nofun .nil

theorem CopySource.statementFree (source : CopySource) : StatementFree [(true, source.outline)] := by
  cases source with
  | path path => exact path.statementFree
  | missing offset => exact .node nofun .nil

theorem Operation.statementFree (operation : Operation) :
    StatementFree [(true, operation.outline)] := by
  cases operation with
  | assign range value => exact .node nofun value.statementFree
  | copy range source => exact .node nofun source.statementFree
  | unset range => exact .node nofun .nil

/-- The statements of an object statement are those of its block. -/
theorem headParts_statementFree (path : Path) (operation : Option Operation) :
    StatementFree (headParts path operation) := by
  cases operation with
  | none => exact path.statementFree
  | some operation => exact path.statementFree.append operation.statementFree

/-- The first child of each object statement is a path that covers something. -/
def Begun (parts : Parts) : Prop :=
  ∀ outline ∈ nodesOf parts, outline.tag = .objectStatement →
    ∃ path more, listedOf outline.parts = path :: more ∧ path.tag = .objectPath ∧
      path.range.start < path.range.stop

namespace Begun

variable {front behind parts : Parts}

theorem of_free (free : StatementFree parts) : Begun parts :=
  fun outline member tagged => absurd tagged (free outline member)

theorem append (first : Begun front) (second : Begun behind) : Begun (front ++ behind) := by
  rw [Begun, nodesOf_append]
  exact List.forall_mem_append.mpr ⟨first, second⟩

theorem object {path : Path} {operation : Option Operation} (range : ByteRange)
    (begins : path.range.start < path.range.stop) (inside : Begun parts) :
    Begun [(true, .node .objectStatement range (headParts path operation ++ parts))] := by
  have below : Begun (headParts path operation ++ parts) :=
    (of_free (headParts_statementFree path operation)).append inside
  rw [Begun, nodesOf_singleton]
  refine List.forall_mem_append.mpr ⟨below, List.forall_mem_singleton.mpr fun _ => ?_⟩
  exact ⟨path.outline, _, rfl, rfl, begins⟩

theorem statement {head : ObjectHead} (stop : Nat) {block : Option (List Statement)}
    (begins : head.path.range.start < head.path.range.stop)
    (inside : Begun (statementsParts (block.getD []))) :
    Begun (statementsParts [head.statement stop block]) := by
  have object : Begun [(true, .node .objectStatement ⟨head.path.range.start, stop⟩
      (headParts head.path head.operation ++ statementsParts (block.getD [])))] :=
    object _ begins inside
  cases block with
  | some block => exact object
  | none =>
    rw [Option.getD_none, statementsParts, List.append_nil] at object
    exact object

end Begun

section Reading

variable {source : Source} {c : Cursor}

theorem lineStatement?_statementFree {s : Step c (Option Statement)}
    (found : lineStatement? source c = some s) : StatementFree (statementsParts s.value.toList) := by
  unfold lineStatement? at found
  split at found
  · cases found
  · split at found
    · obtain rfl := Option.some.inj found
      exact .node (by decide) .nil
    · split at found
      · obtain rfl := Option.some.inj found
        exact .nil
      · cases found

theorem objectHead?_begins {s : { s : Step c ObjectHead // s.cursor.remaining < c.remaining }}
    (sound : c.Sound source) (found : objectHead? source c = some s) :
    s.1.value.path.range.start < s.1.value.path.range.stop := by
  unfold objectHead? at found
  split at found
  · cases found
  · next path read =>
    obtain rfl := Option.some.inj found
    obtain ⟨-, range, progress⟩ := path?_reads sound read
    change path.value.range.start < path.value.range.stop
    rw [range]
    exact progress

mutual

theorem statement_begun {c : Cursor} (sound : c.Sound source) :
    Begun (statementsParts (statement source c).value.toList) := by
  rw [statement]
  split
  · next s found => exact .of_free (lineStatement?_statementFree found)
  · split
    · exact .of_free .nil
    · next head lt found =>
      have begins := objectHead?_begins sound found
      have reads := (objectHead?_reads sound found).1
      split
      · exact Begun.statement _ begins (.of_free .nil)
      · next inside lt' opened =>
        unfold insideBlock? at opened
        split at opened
        · cases opened
        · next t ts here =>
          split at opened
          · obtain equal := Option.some.inj opened
            obtain rfl := congrArg Subtype.val equal
            have shorter := Cursor.remaining_past_lt here
            exact Begun.statement _ begins (statementList_begun true (reads.sound.past here))
          · cases opened
termination_by 2 * c.remaining
decreasing_by all_goals omega

theorem statementList_begun {c : Cursor} (inBlock : Bool) (sound : c.Sound source) :
    Begun (statementsParts (statementList source inBlock c).value) := by
  rw [statementList]
  split
  · exact .of_free .nil
  · next t ts here =>
    have lt := Cursor.remaining_past_lt here
    split
    · exact .of_free .nil
    · have first := statement_begun sound
      have reads := statement_reads sound
      split
      next found c₁ h₁ equal =>
        rw [equal] at first reads
        split
        · have others := statementList_begun inBlock reads.sound
          split
          next more c₃ h₃ equal' =>
            rw [equal'] at others
            rw [statementsParts_append]
            exact first.append others
        · have skipped := (sound.fail (.unexpected t.text)).past here
          have lt' : ((c.fail source.size (.unexpected t.text)).past t ts).remaining <
            c.remaining := lt
          have others := statementList_begun inBlock skipped
          split
          next more c₃ h₃ equal' =>
            rw [equal'] at others
            rw [statementsParts_append]
            exact first.append others
termination_by 2 * c.remaining + 1
decreasing_by all_goals omega

end

end Reading

end FusionAtlas.Template

namespace FusionAtlas.SyntaxTree

open FusionAtlas.Template
open Outline (nodesOf listedOf)

section Links

variable {α : Type} {read : SyntaxNode → α}

theorem map_adopt (free : ∀ node parent, read { node with parent := parent } = read node)
    (nodes : Nodes) (parent : NodeId) (children : List NodeId) (id : NodeId) :
    (adopt nodes parent children)[id]?.map read = nodes[id]?.map read := by
  rw [getElem?_adopt, Option.map_map]
  congr 1
  funext node
  rw [Function.comp_apply]
  split
  · exact free node _
  · rfl

/-- Linking changes parents only. -/
theorem map_link (free : ∀ node parent, read { node with parent := parent } = read node)
    (nodes : Nodes) (id : NodeId) : (link nodes)[id]?.map read = nodes[id]?.map read := by
  unfold link
  refine List.foldlRecOn (motive := fun linked : Nodes =>
    linked[id]?.map read = nodes[id]?.map read) _ _ rfl ?_
  intro linked same parent _
  split
  · exact (map_adopt free linked parent _ id).trans same
  · exact same

theorem kind_link (nodes : Nodes) (id : NodeId) :
    (link nodes)[id]?.map (·.kind) = nodes[id]?.map (·.kind) :=
  map_link (fun _ _ => rfl) nodes id

end Links

/-- The statements a template begins with, not those in their blocks. -/
def topStatements (tree : SyntaxTree) : List NodeId :=
  match tree.root.bind tree.kind? with
  | some (.fusionFile statements) => statements
  | _ => []

/-- Each object statement that was placed is among those that wait for the node that lists them, or in
the block of another. -/
def Hangs (nodes : Nodes) (waiting : List NodeId) : Prop :=
  ∀ (id : NodeId) (node : SyntaxNode), nodes[id]? = some node → node.kind.tag = .objectStatement →
    id ∈ waiting ∨ ∃ (holder : NodeId) (other : SyntaxNode) (path : NodeId) (operation : Option NodeId)
      (block : List NodeId), nodes[holder]? = some other ∧
        other.kind = .objectStatement path operation (some block) ∧ id ∈ block

section Placing

variable {nodes after : Nodes} {parts : Parts} {ids waiting : List NodeId}

theorem Grows.kept (grows : Grows nodes parts ids after) {id : NodeId} {node : SyntaxNode}
    (here : nodes[id]? = some node) : after[id]? = some node := by
  obtain ⟨new, whole, -⟩ := grows.shows
  rw [← Array.getElem?_toList] at here ⊢
  rw [whole, List.getElem?_append_left (List.getElem?_eq_some_iff.mp here).1, here]

/-- A node was there before, or shows one of the parts. -/
theorem Grows.old_or_new (grows : Grows nodes parts ids after) {id : NodeId} {node : SyntaxNode}
    (here : after[id]? = some node) :
    nodes[id]? = some node ∨ ∃ outline ∈ nodesOf parts, node.kind.tag = outline.tag := by
  obtain ⟨new, whole, shows⟩ := grows.shows
  rw [← Array.getElem?_toList, whole] at here
  by_cases old : id < nodes.toList.length
  · left
    rw [← Array.getElem?_toList, ← here, List.getElem?_append_left old]
  · right
    rw [List.getElem?_append_right (Nat.le_of_not_lt old)] at here
    obtain ⟨bound, rfl⟩ := List.getElem?_eq_some_iff.mp here
    have bound' := shows.length_eq ▸ bound
    have shown := shows.get bound bound'
    refine ⟨_, ?_, shown.tag⟩
    rw [← map_outline_spotsOf nodes.size parts]
    exact List.mem_map_of_mem (List.get_mem _ ⟨_, bound'⟩)

namespace Hangs

theorem mono {more : List NodeId} (hangs : Hangs nodes waiting) (sub : waiting ⊆ more) :
    Hangs nodes more :=
  fun id node here tagged => (hangs id node here tagged).imp_left fun member => sub member

/-- What holds no statements does not disturb. -/
theorem grow (hangs : Hangs nodes waiting) (grows : Grows nodes parts ids after)
    (free : StatementFree parts) : Hangs after waiting := by
  intro id node here tagged
  rcases grows.old_or_new here with old | ⟨outline, member, same⟩
  · refine (hangs id node old tagged).imp_right ?_
    rintro ⟨holder, other, path, operation, block, there, kind, inside⟩
    exact ⟨holder, other, path, operation, block, grows.kept there, kind, inside⟩
  · exact absurd (same.symm.trans tagged) (free outline member)

/-- An object statement takes those that wait for its block, and waits itself. -/
theorem object (path : NodeId) (operation : Option NodeId) (block : Option (List NodeId))
    (range : ByteRange) (hangs : Hangs nodes (waiting ++ block.getD [])) :
    let placed := place (.objectStatement path operation block) range nodes
    Hangs placed.2 (waiting ++ [placed.1]) := by
  intro placed id node here tagged
  have kept {holder : NodeId} {other : SyntaxNode} (there : nodes[holder]? = some other) :
      placed.2[holder]? = some other := by
    have below := (Array.getElem?_eq_some_iff.mp there).1
    change (nodes.push _)[holder]? = _
    rw [Array.getElem?_push, if_neg (Nat.ne_of_lt below), there]
  change (nodes.push _)[id]? = _ at here
  rw [Array.getElem?_push] at here
  split at here
  · next last => exact Or.inl (List.mem_append_right _ (List.mem_singleton.mpr last))
  · rcases hangs id node here tagged with member | ⟨holder, other, path', operation', block', there, rest⟩
    · rcases List.mem_append.mp member with waits | inside
      · exact Or.inl (List.mem_append_left _ waits)
      · right
        cases block with
        | none => exact nomatch inside
        | some block =>
          exact ⟨nodes.size, _, path, operation, block, Array.getElem?_push_size, rfl, inside⟩
    · exact Or.inr ⟨holder, other, path', operation', block', kept there, rest⟩

end Hangs

mutual

theorem placeStatement_hangs {nodes : Nodes} {waiting : List NodeId} (hangs : Hangs nodes waiting) :
    ∀ statement : Statement,
      Hangs (placeStatement statement nodes).2 (waiting ++ [(placeStatement statement nodes).1])
  | .includeFile range path => by
    have placed := placeStatement_grows nodes (.includeFile range path)
    exact (hangs.grow placed (.node nofun .nil)).mono (List.subset_append_left _ _)
  | .object range path operation none => by
    have head := hangs.grow (placeHead_grows nodes path operation) (headParts_statementFree path operation)
    refine Hangs.object _ _ none range ?_
    rw [Option.getD_none, List.append_nil]
    exact head
  | .object range path operation (some block) => by
    have head := hangs.grow (placeHead_grows nodes path operation) (headParts_statementFree path operation)
    exact Hangs.object _ _ (some _) range (placeStatements_hangs head block)

theorem placeStatements_hangs {nodes : Nodes} {waiting : List NodeId} (hangs : Hangs nodes waiting) :
    ∀ statements : List Statement,
      Hangs (placeStatements statements nodes).2 (waiting ++ (placeStatements statements nodes).1)
  | [] => by
    rw [placeStatements, List.append_nil]
    exact hangs
  | statement :: more => by
    have first := placeStatement_hangs hangs statement
    have others := placeStatements_hangs first more
    rw [List.append_assoc] at others
    exact others

end

end Placing

/-- The root comes behind the statements and lists them. -/
theorem kind?_ofTemplate (template : FusionAtlas.Template) (id : NodeId) :
    let placed := placeStatements template.statements #[]
    (ofTemplate template).kind? id =
      if id = placed.2.size then some (.fusionFile placed.1) else placed.2[id]?.map (·.kind) := by
  intro placed
  refine (kind_link (place (.fusionFile placed.1) ⟨0, template.size⟩ placed.2).2 id).trans ?_
  change (placed.2.push _)[id]?.map (·.kind) = _
  rw [Array.getElem?_push]
  split <;> rfl

theorem topStatements_ofTemplate (template : FusionAtlas.Template) :
    (ofTemplate template).topStatements = (placeStatements template.statements #[]).1 := by
  have root : (ofTemplate template).root.bind (ofTemplate template).kind? =
      some (.fusionFile (placeStatements template.statements #[]).1) :=
    (kind?_ofTemplate template _).trans (if_pos rfl)
  rw [topStatements, root]

/-- Every object statement of a template stands at its top or in the block of another. -/
theorem mem_top_or_blockOf (template : FusionAtlas.Template) {id : NodeId}
    (tagged : (ofTemplate template).HasTag id .objectStatement) :
    id ∈ (ofTemplate template).topStatements ∨ ∃ holder, id ∈ (ofTemplate template).blockOf holder := by
  let placed := placeStatements template.statements #[]
  have empty : Hangs #[] [] := fun _ _ here _ => nomatch here
  have hangs : Hangs placed.2 placed.1 := placeStatements_hangs empty template.statements
  rw [HasTag, kind?_ofTemplate] at tagged
  split at tagged
  · cases tagged
  · rw [Option.map_map] at tagged
    obtain ⟨node, here, tag⟩ := Option.map_eq_some_iff.mp tagged
    rw [topStatements_ofTemplate]
    refine (hangs id node here tag).imp_right ?_
    rintro ⟨holder, other, path, operation, block, there, kind, inside⟩
    have below : holder ≠ placed.2.size := Nat.ne_of_lt (Array.getElem?_eq_some_iff.mp there).1
    refine ⟨holder, ?_⟩
    rw [blockOf, kind?_ofTemplate, if_neg below, there, Option.map_some, kind]
    exact inside

/-- Each object statement begins with a path that covers something. -/
def BeginsWithPaths (tree : SyntaxTree) : Prop :=
  ∀ (statement path : NodeId) (operation : Option NodeId) (block : Option (List NodeId)),
    tree.kind? statement = some (.objectStatement path operation block) →
    tree.HasTag path .objectPath ∧ (tree.range path).start < (tree.range path).stop

theorem Follows.beginsWithPaths {tree : SyntaxTree} {outline : Outline} (follows : tree.Follows outline)
    (begun : Begun [(true, outline)]) : tree.BeginsWithPaths := by
  intro statement path operation block kind
  have children : tree.children statement = path :: (operation.toList ++ block.getD []) := by
    rw [children, kind]
    rfl
  obtain ⟨node, here, same⟩ := Option.map_eq_some_iff.mp kind
  have inside : statement < tree.size := (Array.getElem?_eq_some_iff.mp here).1
  obtain ⟨spot, shown⟩ := follows.exists_spot inside
  have tagged : spot.outline.tag = .objectStatement := by
    rw [← follows.hasTag_iff shown, HasTag, kind]
    rfl
  have among : spot.outline ∈ nodesOf [(true, outline)] := by
    rw [Outline.nodesOf_singleton, ← map_outline_spots 0]
    exact List.mem_map_of_mem (List.mem_of_getElem? shown)
  obtain ⟨first, more, parts, tag, covers⟩ := begun _ among tagged
  have alike := follows.forall₂_children shown
  rw [children, parts, List.forall₂_cons] at alike
  obtain ⟨⟨place, there, rfl⟩, -⟩ := alike
  rw [follows.hasTag_iff there, follows.range_eq there]
  exact ⟨tag, covers⟩

end FusionAtlas.SyntaxTree

namespace FusionAtlas

theorem parseTemplate_begins (text : String) : (parseTemplate text).tree.BeginsWithPaths := by
  have begun := Template.statementList_begun false (sound_tokens text)
  refine (SyntaxTree.ofTemplate_follows (parseTemplate text).template).beginsWithPaths ?_
  rw [Template.Begun, SyntaxTree.Outline.nodesOf_singleton]
  exact List.forall_mem_append.mpr ⟨begun, List.forall_mem_singleton.mpr nofun⟩

end FusionAtlas
