import FusionAtlas.Proofs.StatementBlocks

/-!
Object statements in the order of the text, each before those in its block. Nodes are numbered from the
leaves up, so their numbers do not say this order, but a walk through the blocks from the top does.
Main statements: `SyntaxTree.pairwise_statementsWithin` for the order and `SyntaxTree.mem_statementOrder`
by which the walk passes every object statement.
-/

set_option autoImplicit false
set_option relaxedAutoImplicit false

namespace FusionAtlas.SyntaxTree

open FusionAtlas.Template

instance (tree : SyntaxTree) (id : NodeId) (tag : NodeTag) : Decidable (tree.HasTag id tag) :=
  inferInstanceAs (Decidable (_ = _))

/-- The object statements among some statements and in their blocks, down to a depth. -/
def statementsWithin (tree : SyntaxTree) : Nat → List NodeId → List NodeId
  | 0, _ => []
  | depth + 1, statements =>
    statements.flatMap fun statement =>
      if tree.HasTag statement .objectStatement then
        statement :: tree.statementsWithin depth (tree.blockOf statement)
      else []

/-- All object statements, each before those in its block. -/
def statementOrder (tree : SyntaxTree) : List NodeId :=
  tree.statementsWithin tree.size tree.topStatements

variable {tree : SyntaxTree} {depth id statement inner : Nat} {statements : List Nat}

@[simp] theorem statementsWithin_nil (tree : SyntaxTree) (depth : Nat) :
    tree.statementsWithin depth [] = [] := by
  cases depth <;> rfl

theorem statementsWithin_cons (tree : SyntaxTree) (depth : Nat) (statement : NodeId)
    (more : List NodeId) :
    tree.statementsWithin (depth + 1) (statement :: more) =
      (if tree.HasTag statement .objectStatement then
        statement :: tree.statementsWithin depth (tree.blockOf statement) else []) ++
        tree.statementsWithin (depth + 1) more :=
  List.flatMap_cons

/-- A statement that the walk passes is one of those it starts from, or in the block of one. -/
theorem mem_statementsWithin_succ : id ∈ tree.statementsWithin (depth + 1) statements ↔
    ∃ statement ∈ statements, tree.HasTag statement .objectStatement ∧
      (id = statement ∨ id ∈ tree.statementsWithin depth (tree.blockOf statement)) := by
  rw [statementsWithin, List.mem_flatMap]
  refine exists_congr fun statement => and_congr_right fun _ => ?_
  by_cases tagged : tree.HasTag statement .objectStatement
  · rw [if_pos tagged, List.mem_cons]
    exact (and_iff_right tagged).symm
  · rw [if_neg tagged]
    exact iff_of_false List.not_mem_nil fun both => tagged both.1

theorem exists_path (tagged : tree.HasTag statement .objectStatement) :
    ∃ path operation block, tree.kind? statement = some (.objectStatement path operation block) := by
  obtain ⟨kind, here, tag⟩ := Option.map_eq_some_iff.mp tagged
  cases kind with
  | objectStatement path operation block => exact ⟨path, operation, block, here⟩
  | _ => cases tag

/-- The children of an object statement: its path, its operation, and those in its block. -/
theorem children_eq {path : NodeId} {operation : Option NodeId} {block : Option (List NodeId)}
    (kind : tree.kind? statement = some (.objectStatement path operation block)) :
    tree.children statement = path :: (operation.toList ++ tree.blockOf statement) := by
  rw [children, blockOf, kind]
  cases block <;> rfl

theorem tagged_of_mem_blockOf (member : inner ∈ tree.blockOf statement) :
    tree.HasTag statement .objectStatement := by
  unfold blockOf at member
  split at member
  · next kind =>
    rw [HasTag, kind]
    rfl
  · cases member

theorem children_of_mem_blockOf (member : inner ∈ tree.blockOf statement) :
    inner ∈ tree.children statement := by
  obtain ⟨path, operation, block, kind⟩ := exists_path (tagged_of_mem_blockOf member)
  rw [children_eq kind]
  exact List.mem_cons_of_mem _ (List.mem_append_right _ member)

section Depth

variable (ordered : tree.Ordered)

include ordered

/-- The walk goes into all blocks, as no more of them can be nested than numbers are left. -/
theorem mem_statementsWithin_of_blockOf (low : ∀ statement ∈ statements, statement < depth)
    (member : id ∈ tree.statementsWithin depth statements) (inside : inner ∈ tree.blockOf id)
    (tagged : tree.HasTag inner .objectStatement) : inner ∈ tree.statementsWithin depth statements := by
  induction depth generalizing statements with
  | zero => cases member
  | succ depth ih =>
    obtain ⟨statement, among, object, here⟩ := mem_statementsWithin_succ.mp member
    refine mem_statementsWithin_succ.mpr ⟨statement, among, object, Or.inr ?_⟩
    have lower (other : Nat) (held : other ∈ tree.blockOf statement) : other < depth := by
      have less : other < statement := ordered.child_lt statement other (children_of_mem_blockOf held)
      have bound := low statement among
      omega
    rcases here with rfl | below
    · obtain ⟨depth, rfl⟩ : ∃ rest, depth = rest + 1 := Nat.exists_eq_add_one.mpr (by
        have bound := lower inner inside
        omega)
      exact mem_statementsWithin_succ.mpr ⟨inner, inside, tagged, Or.inl rfl⟩
    · exact ih lower below

/-- The root is the last node, and its children are the statements at the top. -/
theorem topStatements_eq : ∃ root, tree.size = root + 1 ∧ tree.topStatements = tree.children root := by
  obtain ⟨root, named, size, file, -⟩ := ordered.root
  refine ⟨root, size, ?_⟩
  obtain ⟨kind, here, tag⟩ := Option.map_eq_some_iff.mp file
  cases kind with
  | fusionFile statements =>
    rw [topStatements, named, Option.bind_some, children, here]
    rfl
  | _ => cases tag

theorem topStatements_lt_size (member : statement ∈ tree.topStatements) : statement < tree.size := by
  obtain ⟨root, size, top⟩ := topStatements_eq ordered
  have less : statement < root := ordered.child_lt root statement (top ▸ member)
  omega

/-- Where every object statement stands at the top or in a block, the walk passes it. The induction goes
down from the root, for the statement whose block it is in has a larger number. -/
theorem mem_statementOrder (stands : ∀ id, tree.HasTag id .objectStatement →
      id ∈ tree.topStatements ∨ ∃ holder, id ∈ tree.blockOf holder)
    (tagged : tree.HasTag id .objectStatement) : id ∈ tree.statementOrder := by
  induction above : tree.size - id using Nat.strongRecOn generalizing id with
  | ind left ih =>
    rcases stands id tagged with top | ⟨holder, inside⟩
    · obtain ⟨depth, deep⟩ : ∃ rest, tree.size = rest + 1 := Nat.exists_eq_add_one.mpr (by
        have bound := topStatements_lt_size ordered top
        omega)
      rw [statementOrder, deep]
      exact mem_statementsWithin_succ.mpr ⟨id, top, tagged, Or.inl rfl⟩
    · have object := tagged_of_mem_blockOf inside
      have larger : id < holder := ordered.child_lt holder id (children_of_mem_blockOf inside)
      have bound : holder < tree.size := by
        obtain ⟨kind, here, -⟩ := Option.map_eq_some_iff.mp object
        obtain ⟨node, found, -⟩ := Option.map_eq_some_iff.mp here
        exact (Array.getElem?_eq_some_iff.mp found).1
      have fewer : tree.size - holder < left :=
        above ▸ Nat.sub_lt_sub_left (Nat.lt_trans larger bound) larger
      have passed : holder ∈ tree.statementOrder := ih _ fewer object rfl
      exact mem_statementsWithin_of_blockOf ordered
        (fun statement among => topStatements_lt_size ordered among) passed inside tagged

end Depth

section Ranges

variable {text : List Char} (nested : tree.Nested text) (begins : tree.BeginsWithPaths)

include nested

/-- What the walk passes lies in a statement that it starts from. -/
theorem enclosed_of_mem_statementsWithin (member : id ∈ tree.statementsWithin depth statements) :
    tree.HasTag id .objectStatement ∧ ∃ statement ∈ statements,
      tree.HasTag statement .objectStatement ∧ (tree.range statement).Encloses (tree.range id) := by
  induction depth generalizing statements with
  | zero => cases member
  | succ depth ih =>
    obtain ⟨statement, among, object, rfl | below⟩ := mem_statementsWithin_succ.mp member
    · exact ⟨object, id, among, object, .refl _⟩
    · obtain ⟨tagged, inner, inside, present, around⟩ := ih below
      have listed := children_of_mem_blockOf inside
      have other : ¬ tree.HasTag inner .error := fun missing =>
        absurd (present.symm.trans missing) (by decide)
      have outer := nested.child statement inner listed other
      exact ⟨tagged, statement, among, object, Nat.le_trans outer.1 around.1,
        Nat.le_trans around.2 outer.2⟩

include begins

/-- An object statement covers its path, and what is in its block starts behind that. -/
theorem start_lt_of_tagged (tagged : tree.HasTag statement .objectStatement) :
    (tree.range statement).start < (tree.range statement).stop ∧
      ∀ inner ∈ tree.blockOf statement, (tree.range statement).start < (tree.range inner).start := by
  obtain ⟨path, operation, block, kind⟩ := exists_path tagged
  obtain ⟨isPath, covers⟩ := begins statement path operation block kind
  have children := children_eq kind
  have other : ¬ tree.HasTag path .error := fun missing =>
    absurd (isPath.symm.trans missing) (by decide)
  have around := nested.child statement path (children ▸ List.mem_cons_self) other
  have siblings := nested.ordered statement
  rw [children, List.pairwise_cons] at siblings
  constructor
  · exact Nat.lt_of_le_of_lt around.1 (Nat.lt_of_lt_of_le covers around.2)
  · intro inner inside
    have behind := siblings.1 inner (List.mem_append_right _ inside)
    exact Nat.lt_of_le_of_lt around.1 (Nat.lt_of_lt_of_le covers behind)

/-- Statements that follow one another are passed in the order of their starts, with their blocks. -/
theorem pairwise_statementsWithin
    (apart : statements.Pairwise fun a b => (tree.range a).Before (tree.range b)) :
    (tree.statementsWithin depth statements).Pairwise fun a b =>
      (tree.range a).start < (tree.range b).start := by
  induction depth generalizing statements with
  | zero => exact .nil
  | succ depth ih =>
    have within {statement id : NodeId} (member : id ∈
        if tree.HasTag statement .objectStatement then
          statement :: tree.statementsWithin depth (tree.blockOf statement) else []) :
        tree.HasTag id .objectStatement ∧ (tree.range statement).Encloses (tree.range id) := by
      have passed : id ∈ tree.statementsWithin (depth + 1) [statement] := by
        rw [statementsWithin, List.flatMap_singleton]
        exact member
      obtain ⟨tagged, _, among, -, around⟩ := enclosed_of_mem_statementsWithin nested passed
      obtain rfl := List.mem_singleton.mp among
      exact ⟨tagged, around⟩
    rw [statementsWithin, List.pairwise_flatMap]
    constructor
    · intro statement _
      by_cases tagged : tree.HasTag statement .objectStatement
      · rw [if_pos tagged, List.pairwise_cons]
        obtain ⟨path, operation, block, kind⟩ := exists_path tagged
        have siblings := nested.ordered statement
        rw [children_eq kind, List.pairwise_cons, List.pairwise_append] at siblings
        refine ⟨fun id below => ?_, ih siblings.2.2.1⟩
        obtain ⟨-, inner, inside, -, around⟩ := enclosed_of_mem_statementsWithin nested below
        have first := (start_lt_of_tagged nested begins tagged).2 inner inside
        exact Nat.lt_of_lt_of_le first around.1
      · rw [if_neg tagged]
        exact .nil
    · refine apart.imp fun {a b} before x inFirst y inSecond => ?_
      obtain ⟨tagged, around⟩ := within inFirst
      have covers := (start_lt_of_tagged nested begins tagged).1
      have around' := (within inSecond).2
      exact Nat.lt_of_lt_of_le covers
        (Nat.le_trans around.2 (Nat.le_trans before around'.1))

end Ranges

end FusionAtlas.SyntaxTree

namespace FusionAtlas

/-- The walk through a template passes exactly its object statements, in the order of the text. -/
theorem parseTemplate_statementOrder (text : String) :
    let tree := (parseTemplate text).tree
    (∀ id, id ∈ tree.statementOrder ↔ tree.HasTag id .objectStatement) ∧
      (tree.statementOrder.Pairwise fun a b => (tree.range a).start < (tree.range b).start) ∧
      ∀ statement, ∀ inner ∈ tree.blockOf statement,
        (tree.range statement).start < (tree.range inner).start := by
  intro tree
  have ordered : tree.Ordered := (SyntaxTree.ofTemplate_follows (parseTemplate text).template).ordered rfl
  have nested : tree.Nested text.toList := (parseTemplate_nested text).1
  have begins : tree.BeginsWithPaths := parseTemplate_begins text
  have stands (id : NodeId) (tagged : tree.HasTag id .objectStatement) :
      id ∈ tree.topStatements ∨ ∃ holder, id ∈ tree.blockOf holder :=
    SyntaxTree.mem_top_or_blockOf (parseTemplate text).template tagged
  refine ⟨fun id => ⟨?_, SyntaxTree.mem_statementOrder ordered stands⟩, ?_, ?_⟩
  · exact fun passed => (SyntaxTree.enclosed_of_mem_statementsWithin nested passed).1
  · obtain ⟨root, -, top⟩ := SyntaxTree.topStatements_eq ordered
    exact SyntaxTree.pairwise_statementsWithin nested begins (top ▸ nested.ordered root)
  · intro statement inner inside
    have tagged := SyntaxTree.tagged_of_mem_blockOf inside
    exact (SyntaxTree.start_lt_of_tagged nested begins tagged).2 inner inside

end FusionAtlas
