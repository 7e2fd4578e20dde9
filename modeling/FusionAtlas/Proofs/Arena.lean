import FusionAtlas.Proofs.Outline
import Mathlib.Data.List.Nodup
import Mathlib.Logic.Relation

/-!
Numbering of a syntax tree. Children are numbered before their parents and belong to one node only,
so following parents ends. Main statements: `SyntaxTree.Follows.ordered`, and
`SyntaxTree.Follows.complete` for a template in which nothing was abandoned.
-/

set_option autoImplicit false
set_option relaxedAutoImplicit false

namespace FusionAtlas.SyntaxTree

open Outline (countOf idsOf)

/-- The parent of a node, the parent of that, and so on. -/
def IsAncestor (tree : SyntaxTree) (ancestor id : NodeId) : Prop :=
  Relation.TransGen (fun child parent => tree.parent? child = some parent) id ancestor

/-- There is such a node, and it has the tag. -/
def HasTag (tree : SyntaxTree) (id : NodeId) (tag : NodeTag) : Prop :=
  (tree.kind? id).map NodeKind.tag = some tag

/-- An ancestor with the tag such that every other one is an ancestor of it. -/
def IsNearest (tree : SyntaxTree) (id : NodeId) (tag : NodeTag) (nearest : NodeId) : Prop :=
  tree.IsAncestor nearest id ∧ tree.HasTag nearest tag ∧
    ∀ other, tree.IsAncestor other id → tree.HasTag other tag →
      other = nearest ∨ tree.IsAncestor other nearest

/-- A run of the search from a node upwards that ends with a result. -/
inductive Climbs (tree : SyntaxTree) (tag : NodeTag) : NodeId → Option NodeId → Prop
  | top {id : NodeId} (orphan : tree.parent? id = none) : Climbs tree tag id none
  | found {id parent : NodeId} (here : tree.parent? id = some parent)
      (tagged : tree.HasTag parent tag) : Climbs tree tag id (some parent)
  | up {id parent : NodeId} {result : Option NodeId} (here : tree.parent? id = some parent)
      (other : ¬tree.HasTag parent tag) (further : Climbs tree tag parent result) :
      Climbs tree tag id result

/-- What a search for the nearest ancestor with a tag should find. -/
def FindsNearest (tree : SyntaxTree) (id : NodeId) (tag : NodeTag) : Option NodeId → Prop
  | some nearest => tree.IsNearest id tag nearest
  | none => ∀ other, tree.IsAncestor other id → ¬tree.HasTag other tag

/-- Numbers of the children of a node; a missing node has none. -/
def children (tree : SyntaxTree) (id : NodeId) : List NodeId :=
  ((tree.kind? id).map NodeKind.children).getD []

/-- The nodes are numbered from the leaves up and linked both ways. -/
structure Ordered (tree : SyntaxTree) : Prop where
  child_lt : ∀ id child : Nat, child ∈ tree.children id → child < id
  child_once : ((List.range tree.size).flatMap tree.children).Nodup
  parent_iff : ∀ child parent, tree.parent? child = some parent ↔ child ∈ tree.children parent
  root : ∃ root, tree.root = some root ∧ tree.size = root + 1 ∧ tree.HasTag root .fusionFile ∧
    tree.parent? root = none

/-- Every node is some part of the text that was understood, and hangs below the root. -/
structure Complete (tree : SyntaxTree) : Prop where
  no_error : ∀ id, ¬tree.HasTag id .error
  parent : ∀ id < tree.size, tree.root ≠ some id → ∃ parent, tree.parent? id = some parent

section Ancestors

variable {tree : SyntaxTree} {id parent other : Nat} {tag : NodeTag}

theorem isAncestor_of_parent (here : tree.parent? id = some parent) :
    tree.IsAncestor other id ↔ other = parent ∨ tree.IsAncestor other parent := by
  constructor
  · intro above
    obtain ⟨next, link, rest⟩ := Relation.TransGen.head'_iff.mp above
    obtain rfl : parent = next := Option.some.inj (here.symm.trans link)
    rcases Relation.reflTransGen_iff_eq_or_transGen.mp rest with same | above
    · exact Or.inl same
    · exact Or.inr above
  · rintro (rfl | above)
    · exact Relation.TransGen.single here
    · exact Relation.TransGen.head here above

theorem not_isAncestor_of_orphan (orphan : tree.parent? id = none) : ¬tree.IsAncestor other id := by
  intro above
  obtain ⟨next, link, -⟩ := Relation.TransGen.head'_iff.mp above
  rw [orphan] at link
  cases link

/-- A search that ends finds the nearest ancestor, and nothing only if there is none. -/
theorem Climbs.findsNearest {result : Option NodeId} (climbs : tree.Climbs tag id result) :
    tree.FindsNearest id tag result := by
  induction climbs with
  | top orphan => exact fun other above => absurd above (not_isAncestor_of_orphan orphan)
  | found here tagged =>
    refine ⟨(isAncestor_of_parent here).mpr (Or.inl rfl), tagged, ?_⟩
    exact fun other above _ => (isAncestor_of_parent here).mp above
  | @up id parent result here untagged _ ih =>
    cases result with
    | some nearest =>
      obtain ⟨ancestor, tagged, least⟩ := ih
      refine ⟨(isAncestor_of_parent here).mpr (Or.inr ancestor), tagged, ?_⟩
      intro other above same
      rcases (isAncestor_of_parent here).mp above with rfl | above
      · exact absurd same untagged
      · exact least other above same
    | none =>
      intro other above
      rcases (isAncestor_of_parent here).mp above with rfl | above
      · exact untagged
      · exact ih other above

namespace Ordered

theorem parent_lt_size (ordered : tree.Ordered) (here : tree.parent? id = some parent) :
    parent < tree.size := by
  have member := (ordered.parent_iff id parent).mp here
  by_contra beyond
  have missing : tree.nodes[parent]? = none := Array.getElem?_eq_none (Nat.le_of_not_lt beyond)
  rw [children, kind?, missing] at member
  cases member

theorem lt_parent (ordered : tree.Ordered) (here : tree.parent? id = some parent) : id < parent :=
  ordered.child_lt parent id ((ordered.parent_iff id parent).mp here)

/-- As many steps as there are nodes with larger numbers are enough. -/
theorem climbs_ancestorWithin (ordered : tree.Ordered) {fuel : Nat}
    (enough : tree.size ≤ fuel + id + 1) : tree.Climbs tag id (tree.ancestorWithin tag fuel id) := by
  induction fuel generalizing id with
  | zero =>
    rw [ancestorWithin]
    cases here : tree.parent? id with
    | none => exact .top here
    | some parent =>
      have larger := ordered.lt_parent here
      have bound := ordered.parent_lt_size here
      omega
  | succ fuel ih =>
    rw [ancestorWithin]
    cases here : tree.parent? id with
    | none => exact .top here
    | some parent =>
      have larger := ordered.lt_parent here
      by_cases tagged : (tree.kind? parent).map NodeKind.tag = some tag
      · simp only [if_pos tagged]
        exact .found here tagged
      · simp only [if_neg tagged]
        exact .up here tagged (ih (by omega))

/-- The search for an ancestor ends. -/
theorem climbs_findAncestor (ordered : tree.Ordered) (id : NodeId) (tag : NodeTag) :
    tree.Climbs tag id (tree.findAncestor id tag) :=
  ordered.climbs_ancestorWithin (by omega)

end Ordered

end Ancestors

section Numbers

mutual

theorem map_id_spots (base : Nat) : ∀ outline : Outline,
    (spots base outline).map Spot.id = List.range' base (outline.inner + 1)
  | .node tag range parts => by
    rw [spots, List.map_append, map_id_spotsOf base parts, List.map_singleton, Spot.id,
      Outline.inner, List.range'_1_concat]

theorem map_id_spotsOf (base : Nat) : ∀ parts : List (Bool × Outline),
    (spotsOf base parts).map Spot.id = List.range' base (countOf parts)
  | [] => rfl
  | (_, outline) :: more => by
    rw [spotsOf, List.map_append, map_id_spots base outline, map_id_spotsOf _ more, Nat.add_assoc,
      List.range'_append_1, Outline.countOf]

end

/-- A place is at the position that its node's number says. -/
theorem id_of_getElem?_spots {outline : Outline} {i : Nat} {spot : Spot}
    (here : (spots 0 outline)[i]? = some spot) : spot.id = i := by
  have numbered := congrArg (fun numbers => numbers[i]?) (map_id_spots 0 outline)
  have inside : i < outline.inner + 1 := by
    rw [← length_spots 0 outline]
    exact (List.getElem?_eq_some_iff.mp here).1
  simp only [List.getElem?_map, here, Option.map_some, List.getElem?_range' inside,
    Option.some.injEq] at numbered
  omega

/-- Numbers that are all different and lie from `low` up to, not including, `high`. -/
structure Distinct (low high : Nat) (numbers : List Nat) : Prop where
  nodup : numbers.Nodup
  bounds : ∀ n ∈ numbers, low ≤ n ∧ n < high

namespace Distinct

variable {low mid high : Nat} {front behind : List Nat}

theorem append (first : Distinct low mid front) (second : Distinct mid high behind)
    (le : low ≤ mid) (le' : mid ≤ high) : Distinct low high (front ++ behind) := by
  constructor
  · refine List.nodup_append.mpr ⟨first.nodup, second.nodup, ?_⟩
    intro n early m late same
    have smaller := (first.bounds n early).2
    have larger := (second.bounds m late).1
    omega
  · intro n member
    rcases List.mem_append.mp member with early | late
    · have bounds := first.bounds n early
      omega
    · have bounds := second.bounds n late
      omega

theorem perm (distinct : Distinct low high front) (same : front.Perm behind) :
    Distinct low high behind :=
  ⟨same.nodup_iff.mp distinct.nodup, fun n member => distinct.bounds n (same.mem_iff.mpr member)⟩

theorem flag (listed : Bool) (n : Nat) : Distinct n (n + 1) (if listed then [n] else []) := by
  cases listed with
  | false => exact ⟨List.nodup_nil, fun _ member => nomatch member⟩
  | true =>
    refine ⟨List.nodup_singleton n, ?_⟩
    intro m member
    obtain rfl := List.mem_singleton.mp member
    omega

end Distinct

/-- The children of all nodes of some parts, and the listed parts. -/
def taken (base : Nat) (parts : Parts) : List NodeId :=
  (spotsOf base parts).flatMap Spot.children ++ idsOf base parts

theorem flatMap_children_spots (base : Nat) (outline : Outline) :
    (spots base outline).flatMap Spot.children = taken base outline.parts := by
  obtain ⟨tag, range, parts⟩ := outline
  rw [spots, List.flatMap_append, List.flatMap_singleton]
  rfl

theorem taken_cons (base : Nat) (listed : Bool) (outline : Outline) (more : Parts) :
    (taken base ((listed, outline) :: more)).Perm
      (taken base outline.parts ++ (if listed then [base + outline.inner] else []) ++
        taken (base + outline.inner + 1) more) := by
  rw [taken, spotsOf, List.flatMap_append, flatMap_children_spots, Outline.idsOf, taken.eq_def _ more]
  simp only [List.append_assoc]
  refine List.Perm.append_left _ ?_
  simp only [← List.append_assoc]
  exact List.Perm.append_right _ List.perm_append_comm

mutual

/-- Children come before the node that lists them, and no node is listed twice. -/
theorem distinct_spots (base : Nat) : ∀ outline : Outline,
    Distinct base (base + outline.inner) (taken base outline.parts)
  | .node _ _ parts => distinct_taken base parts

theorem distinct_taken (base : Nat) : ∀ parts : List (Bool × Outline),
    Distinct base (base + countOf parts) (taken base parts)
  | [] => ⟨List.nodup_nil, fun _ member => nomatch member⟩
  | (listed, outline) :: more => by
    have front := distinct_spots base outline
    have node := Distinct.flag listed (base + outline.inner)
    have behind := distinct_taken (base + outline.inner + 1) more
    have whole := (front.append node (by omega) (by omega)).append behind (by omega) (by omega)
    rw [Outline.countOf, show base + (outline.inner + 1 + countOf more) =
      base + outline.inner + 1 + countOf more by omega]
    exact whole.perm (taken_cons base listed outline more).symm

end

theorem child_lt_of_mem_spots {spot : Spot} {child : Nat} (member : child ∈ spot.children) :
    child < spot.id := by
  have distinct := distinct_spots spot.base spot.outline
  exact (distinct.bounds child (List.mem_append_right _ member)).2

end Numbers

section Links

variable {nodes : Nodes} {children : List NodeId} {parent child : NodeId}

/-- Adopting children changes their parents only. -/
theorem getElem?_adopt (nodes : Nodes) (parent : NodeId) (children : List NodeId) (i : Nat) :
    (adopt nodes parent children)[i]? =
      nodes[i]?.map fun n => if i ∈ children then { n with parent := some parent } else n := by
  induction children generalizing nodes with
  | nil => simp [adopt]
  | cons child children ih =>
    change (adopt (nodes.modify child fun n => { n with parent := some parent }) parent
      children)[i]? = _
    rw [ih, Array.getElem?_modify]
    cases nodes[i]? with
    | none => simp
    | some n =>
      by_cases same : child = i
      · subst same
        simp
      · have other : ¬i = child := fun equal => same equal.symm
        simp [same, other]

/-- Whether a node of the given number lists the child. -/
def Lists (nodes : Nodes) (parent child : NodeId) : Prop :=
  ∃ node, nodes[parent]? = some node ∧ child ∈ node.kind.children

/-- The nodes with each child linked to its parent, if that has a number below `bound`. -/
structure Linked (nodes : Nodes) (bound : Nat) (linked : Nodes) : Prop where
  size : linked.size = nodes.size
  node : ∀ (i : Nat) (n : SyntaxNode), nodes[i]? = some n → ∃ n', linked[i]? = some n' ∧
    n'.kind = n.kind ∧ n'.range = n.range ∧ ∀ p, n'.parent = some p ↔ p < bound ∧ Lists nodes p i

theorem size_adopt (nodes : Nodes) (parent : NodeId) (children : List NodeId) :
    (adopt nodes parent children).size = nodes.size := by
  induction children generalizing nodes with
  | nil => rfl
  | cons child children ih => exact (ih _).trans Array.size_modify

theorem linked_zero (free : ∀ (i : Nat) (n : SyntaxNode), nodes[i]? = some n → n.parent = none) :
    Linked nodes 0 nodes := by
  refine ⟨rfl, ?_⟩
  intro i n here
  refine ⟨n, here, rfl, rfl, ?_⟩
  intro p
  rw [free i n here]
  constructor
  · intro impossible
    cases impossible
  · rintro ⟨impossible, -⟩
    cases impossible

/-- The next node adopts its children. -/
theorem Linked.adopt {bound : Nat} {linked : Nodes} (before : Linked nodes bound linked)
    (once : ∀ p q child, Lists nodes p child → Lists nodes q child → p = q) {node : SyntaxNode}
    (here : nodes[bound]? = some node) :
    Linked nodes (bound + 1) (adopt linked bound node.kind.children) := by
  refine ⟨(size_adopt _ _ _).trans before.size, ?_⟩
  intro i n found
  obtain ⟨n', at', kind, range, parents⟩ := before.node i n found
  rw [getElem?_adopt, at', Option.map_some]
  refine ⟨_, rfl, ?_, ?_, ?_⟩
  · split <;> exact kind
  · split <;> exact range
  · intro p
    rw [Nat.lt_succ_iff_lt_or_eq]
    by_cases member : i ∈ node.kind.children
    · rw [if_pos member]
      have lists : Lists nodes bound i := ⟨node, here, member⟩
      constructor
      · intro equal
        obtain rfl := Option.some.inj equal
        exact ⟨Or.inr rfl, lists⟩
      · rintro ⟨-, also⟩
        rw [once p bound i also lists]
    · rw [if_neg member, parents]
      constructor
      · rintro ⟨lt, lists⟩
        exact ⟨Or.inl lt, lists⟩
      · rintro ⟨lt | rfl, lists⟩
        · exact ⟨lt, lists⟩
        · obtain ⟨again, same, listed⟩ := lists
          rw [here] at same
          obtain rfl := Option.some.inj same
          exact absurd listed member

theorem linked_link (free : ∀ (i : Nat) (n : SyntaxNode), nodes[i]? = some n → n.parent = none)
    (once : ∀ p q child, Lists nodes p child → Lists nodes q child → p = q) :
    Linked nodes nodes.size (link nodes) := by
  have upTo (step : Array SyntaxNode → Nat → Array SyntaxNode)
      (adopts : ∀ (linked : Array SyntaxNode) (id : Nat) (node : SyntaxNode),
        nodes[id]? = some node → step linked id = SyntaxTree.adopt linked id node.kind.children)
      (bound : Nat) (le : bound ≤ nodes.size) :
      Linked nodes bound ((List.range bound).foldl step nodes) := by
    induction bound with
    | zero => exact linked_zero free
    | succ bound ih =>
      have here : nodes[bound]? = some nodes[bound] := Array.getElem?_eq_getElem le
      rw [List.range_succ, List.foldl_append, List.foldl_cons, List.foldl_nil, adopts _ _ _ here]
      exact (ih (Nat.le_of_succ_le le)).adopt once here
  unfold link
  refine upTo _ ?_ nodes.size (Nat.le_refl _)
  intro linked id node here
  simp only [here]

theorem Linked.parent_iff {linked : Nodes} (all : Linked nodes nodes.size linked)
    (child parent : Nat) : linked[child]?.bind (·.parent) = some parent ↔
      child < nodes.size ∧ Lists nodes parent child := by
  by_cases lt : child < nodes.size
  · obtain ⟨n, after, -, -, parents⟩ := all.node child _ (Array.getElem?_eq_getElem lt)
    rw [after, Option.bind_some, parents]
    constructor
    · exact fun both => ⟨lt, both.2⟩
    · rintro ⟨-, listed⟩
      obtain ⟨_, here, -⟩ := id listed
      exact ⟨(Array.getElem?_eq_some_iff.mp here).1, listed⟩
  · have missing : linked[child]? = none := by
      refine Array.getElem?_eq_none ?_
      rw [all.size]
      exact Nat.le_of_not_lt lt
    rw [missing, Option.bind_none]
    constructor
    · intro impossible
      cases impossible
    · exact fun both => absurd both.1 lt

end Links

/-- The nodes of a tree are those of an outline, each child linked to the node that lists it. -/
structure Follows (tree : SyntaxTree) (outline : Outline) : Prop where
  size : tree.size = outline.inner + 1
  root : tree.root = some outline.inner
  node : ∀ (i : Nat) (spot : Spot), (spots 0 outline)[i]? = some spot →
    ∃ n, tree.nodes[i]? = some n ∧ n.kind.tag = spot.outline.tag ∧ n.range = spot.outline.range ∧
      n.kind.children = spot.children
  parent : ∀ (child parent : Nat), tree.parent? child = some parent ↔
    ∃ spot, (spots 0 outline)[parent]? = some spot ∧ child ∈ spot.children

/-- A child is listed at one place only. -/
theorem eq_of_mem_children {outline : Outline} {p q child : Nat} {spot other : Spot}
    (here : (spots 0 outline)[p]? = some spot) (there : (spots 0 outline)[q]? = some other)
    (member : child ∈ spot.children) (also : child ∈ other.children) : p = q := by
  have distinct := (distinct_spots 0 outline).nodup
  rw [← flatMap_children_spots] at distinct
  have apart := (List.nodup_flatMap.mp distinct).2
  obtain ⟨lt, rfl⟩ := List.getElem?_eq_some_iff.mp here
  obtain ⟨lt', rfl⟩ := List.getElem?_eq_some_iff.mp there
  rw [List.pairwise_iff_getElem] at apart
  rcases Nat.lt_trichotomy p q with less | same | less
  · exact absurd also (apart p q lt lt' less member)
  · exact same
  · exact absurd member (apart q p lt' lt less also)

section Shown

variable {nodes : Nodes} {outline : Outline}
  (shows : List.Forall₂ Shows nodes.toList (spots 0 outline))

include shows

theorem shows_of_getElem? {i : Nat} {n : SyntaxNode} {spot : Spot} (left : nodes[i]? = some n)
    (right : (spots 0 outline)[i]? = some spot) : Shows n spot := by
  obtain ⟨lt, rfl⟩ := Array.getElem?_eq_some_iff.mp left
  obtain ⟨lt', rfl⟩ := List.getElem?_eq_some_iff.mp right
  exact shows.get lt lt'

theorem exists_shown {i : Nat} {spot : Spot} (right : (spots 0 outline)[i]? = some spot) :
    ∃ n, nodes[i]? = some n ∧ Shows n spot := by
  have lt : i < nodes.toList.length := shows.length_eq ▸ (List.getElem?_eq_some_iff.mp right).1
  have left : nodes[i]? = some nodes[i] := Array.getElem?_eq_getElem lt
  exact ⟨_, left, shows_of_getElem? shows left right⟩

theorem exists_spot {i : Nat} {n : SyntaxNode} (left : nodes[i]? = some n) :
    ∃ spot, (spots 0 outline)[i]? = some spot ∧ Shows n spot := by
  have lt : i < nodes.toList.length := (Array.getElem?_eq_some_iff.mp left).1
  have right := List.getElem?_eq_getElem (shows.length_eq ▸ lt)
  exact ⟨_, right, shows_of_getElem? shows left right⟩

theorem lists_iff (parent child : Nat) : Lists nodes parent child ↔
    ∃ spot, (spots 0 outline)[parent]? = some spot ∧ child ∈ spot.children := by
  constructor
  · rintro ⟨n, here, member⟩
    obtain ⟨spot, there, shown⟩ := exists_spot shows here
    exact ⟨spot, there, shown.children ▸ member⟩
  · rintro ⟨spot, there, member⟩
    obtain ⟨n, here, shown⟩ := exists_shown shows there
    exact ⟨n, here, shown.children ▸ member⟩

theorem linked_of_shows : Linked nodes nodes.size (link nodes) := by
  refine linked_link ?_ ?_
  · intro i n here
    obtain ⟨spot, -, shown⟩ := exists_spot shows here
    exact shown.parent
  · intro p q child listed again
    obtain ⟨spot, here, member⟩ := (lists_iff shows p child).mp listed
    obtain ⟨other, there, also⟩ := (lists_iff shows q child).mp again
    exact eq_of_mem_children here there member also

end Shown

theorem ofTemplate_follows (template : Template) :
    (ofTemplate template).Follows template.outline := by
  obtain ⟨nodes, shows, same⟩ := ofTemplate_grows template
  generalize template.outline = outline at shows same
  have length : nodes.size = (spots 0 outline).length := shows.length_eq
  have linked := linked_of_shows shows
  rw [same]
  constructor
  case size => exact linked.size.trans (length.trans (length_spots 0 outline))
  case root => rfl
  case node =>
    intro i spot there
    obtain ⟨before, here, shown⟩ := exists_shown shows there
    obtain ⟨n, after, kind, range, -⟩ := linked.node i before here
    refine ⟨n, after, ?_, range.trans shown.range, ?_⟩
    · rw [kind, shown.tag]
    · rw [kind, shown.children]
  case parent =>
    intro child parent
    rw [parent?, linked.parent_iff, lists_iff shows]
    constructor
    · exact fun both => both.2
    · intro listed
      refine ⟨?_, listed⟩
      obtain ⟨spot, there, member⟩ := listed
      have smaller := child_lt_of_mem_spots member
      have number := id_of_getElem?_spots there
      have inside := (List.getElem?_eq_some_iff.mp there).1
      omega

namespace Follows

variable {tree : SyntaxTree} {outline : Outline}

theorem children_eq (follows : tree.Follows outline) (id : Nat) :
    tree.children id = (((spots 0 outline)[id]?).map Spot.children).getD [] := by
  cases here : (spots 0 outline)[id]? with
  | some spot =>
    obtain ⟨n, node, -, -, children⟩ := follows.node id spot here
    rw [SyntaxTree.children, kind?, node]
    exact children
  | none =>
    have beyond : tree.nodes[id]? = none := by
      refine Array.getElem?_eq_none ?_
      change tree.size ≤ id
      rw [follows.size, ← length_spots 0 outline]
      exact List.getElem?_eq_none_iff.mp here
    rw [SyntaxTree.children, kind?, beyond]
    rfl

theorem mem_children_iff (follows : tree.Follows outline) (parent child : Nat) :
    child ∈ tree.children parent ↔
      ∃ spot, (spots 0 outline)[parent]? = some spot ∧ child ∈ spot.children := by
  rw [follows.children_eq]
  cases (spots 0 outline)[parent]? <;> simp

theorem ordered (follows : tree.Follows outline) (file : outline.tag = .fusionFile) :
    tree.Ordered := by
  have last : (spots 0 outline)[outline.inner]? = some ⟨outline, 0⟩ := by
    obtain ⟨tag, range, parts⟩ := outline
    rw [spots, Outline.inner, ← length_spotsOf 0 parts]
    exact List.getElem?_concat_length
  constructor
  case child_lt =>
    intro id child member
    obtain ⟨spot, here, member⟩ := (follows.mem_children_iff id child).mp member
    rw [← id_of_getElem?_spots here]
    exact child_lt_of_mem_spots member
  case child_once =>
    have same : (List.range tree.size).flatMap tree.children =
        (spots 0 outline).flatMap Spot.children := by
      rw [List.flatMap_def, List.flatMap_def]
      refine congrArg List.flatten (List.ext_getElem ?_ ?_)
      · simp [follows.size, length_spots]
      · intro i _ inside
        rw [List.length_map] at inside
        simp [follows.children_eq, List.getElem?_eq_getElem inside]
    rw [same, flatMap_children_spots]
    exact (distinct_spots 0 outline).nodup
  case parent_iff =>
    intro child parent
    rw [follows.parent, follows.mem_children_iff]
  case root =>
    refine ⟨outline.inner, follows.root, follows.size, ?_, ?_⟩
    · obtain ⟨n, node, tag, -⟩ := follows.node _ _ last
      rw [HasTag, kind?, node, ← file, ← tag]
      rfl
    · by_contra linked
      obtain ⟨parent, here⟩ := Option.ne_none_iff_exists'.mp linked
      obtain ⟨spot, there, member⟩ := (follows.parent _ _).mp here
      have smaller := child_lt_of_mem_spots member
      have number := id_of_getElem?_spots there
      have inside := (List.getElem?_eq_some_iff.mp there).1
      rw [length_spots] at inside
      omega

end Follows

namespace Outline

mutual

/-- No node stands for a place where something was missing, and none was abandoned. -/
def Clean : Outline → Prop
  | node tag _ parts => tag ≠ .error ∧ CleanOf parts

def CleanOf : List (Bool × Outline) → Prop
  | [] => True
  | (listed, outline) :: more => listed = true ∧ outline.Clean ∧ CleanOf more

end

theorem cleanOf_append {front behind : Parts} :
    CleanOf (front ++ behind) ↔ CleanOf front ∧ CleanOf behind := by
  induction front with
  | nil => simp [CleanOf]
  | cons part front ih =>
    obtain ⟨listed, outline⟩ := part
    simp only [List.cons_append, CleanOf, ih, and_assoc]

end Outline

section Complete

open Outline (Clean CleanOf)

mutual

theorem tag_of_clean (base : Nat) : ∀ outline : Outline, outline.Clean →
    ∀ spot ∈ spots base outline, spot.outline.tag ≠ .error
  | .node tag range parts, clean, spot, member => by
    rw [spots] at member
    rcases List.mem_append.mp member with inside | last
    · exact tag_of_cleanOf base parts clean.2 spot inside
    · obtain rfl := List.mem_singleton.mp last
      exact clean.1

theorem tag_of_cleanOf (base : Nat) : ∀ parts : List (Bool × Outline), CleanOf parts →
    ∀ spot ∈ spotsOf base parts, spot.outline.tag ≠ .error
  | [], _, _, member => nomatch member
  | (_, outline) :: more, ⟨_, clean, others⟩, spot, member => by
    rw [spotsOf] at member
    rcases List.mem_append.mp member with front | behind
    · exact tag_of_clean base outline clean spot front
    · exact tag_of_cleanOf _ more others spot behind

end

mutual

/-- Where nothing was abandoned, every number below a node's own is taken. -/
theorem mem_taken_of_clean (base : Nat) : ∀ outline : Outline, outline.Clean →
    ∀ n, base ≤ n → n < base + outline.inner → n ∈ taken base outline.parts
  | .node _ _ parts, clean => mem_taken_of_cleanOf base parts clean.2

theorem mem_taken_of_cleanOf (base : Nat) : ∀ parts : List (Bool × Outline), CleanOf parts →
    ∀ n, base ≤ n → n < base + countOf parts → n ∈ taken base parts
  | [], _, n, low, high => by
    rw [Outline.countOf] at high
    omega
  | (listed, outline) :: more, ⟨kept, clean, others⟩, n, low, high => by
    rw [Outline.countOf] at high
    refine (taken_cons base listed outline more).mem_iff.mpr ?_
    rw [kept, List.mem_append, List.mem_append]
    by_cases front : n < base + outline.inner
    · exact Or.inl (Or.inl (mem_taken_of_clean base outline clean n low front))
    · by_cases node : n = base + outline.inner
      · exact Or.inl (Or.inr (List.mem_singleton.mpr node))
      · exact Or.inr (mem_taken_of_cleanOf _ more others n (by omega) (by omega))

end

theorem Follows.complete {tree : SyntaxTree} {outline : Outline} (follows : tree.Follows outline)
    (clean : outline.Clean) : tree.Complete := by
  constructor
  case no_error =>
    intro id tagged
    by_cases inside : id < tree.size
    · have lt : id < (spots 0 outline).length := by
        rw [length_spots, ← follows.size]
        exact inside
      obtain ⟨n, node, tag, -⟩ := follows.node id _ (List.getElem?_eq_getElem lt)
      rw [HasTag, kind?, node, Option.map_some, Option.map_some, tag] at tagged
      exact tag_of_clean 0 outline clean _ (List.getElem_mem lt) (Option.some.inj tagged)
    · have missing : tree.nodes[id]? = none := Array.getElem?_eq_none (Nat.le_of_not_lt inside)
      rw [HasTag, kind?, missing] at tagged
      cases tagged
  case parent =>
    intro id lt other
    rw [follows.root] at other
    have different : id ≠ outline.inner := fun same => other (congrArg some same.symm)
    rw [follows.size] at lt
    have member := mem_taken_of_clean 0 outline clean id (Nat.zero_le id) (by omega)
    rw [← flatMap_children_spots] at member
    obtain ⟨spot, inside, listed⟩ := List.mem_flatMap.mp member
    obtain ⟨parent, here⟩ := List.mem_iff_getElem?.mp inside
    exact ⟨parent, (follows.parent id parent).mpr ⟨spot, here, listed⟩⟩

end Complete

end FusionAtlas.SyntaxTree
