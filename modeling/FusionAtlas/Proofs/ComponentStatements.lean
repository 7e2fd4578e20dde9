import FusionAtlas.Proofs.EntryStore
import FusionAtlas.Proofs.StatementOrder

/-!
The components of a template, statement by statement. A statement whose path begins with a prototype
creates that component or changes it, never both, and the lists of components follow the statements in
the order of the text. Main statements: `SyntaxTree.componentsWithin_eq` and
`SyntaxTree.isGiven_statementComponent` for the walk and one statement of it, and
`TemplateFile.components_by_statement`.
-/

set_option autoImplicit false
set_option relaxedAutoImplicit false

namespace FusionAtlas

namespace Components

theorem append_assoc (a b c : Components) : a ++ b ++ c = a ++ (b ++ c) := by
  change Components.mk _ _ _ = Components.mk _ _ _
  congr 1 <;> exact List.append_assoc ..

end Components

namespace SyntaxTree

variable {tree : SyntaxTree}

/-- The path begins with a prototype, which is this segment. -/
def BeginsWith (tree : SyntaxTree) (path segment : NodeId) : Prop :=
  ∃ more identifier, tree.kind? path = some (.objectPath (segment :: more)) ∧
    tree.kind? segment = some (.prototypePathSegment identifier)

/-- The path of the statement begins with this segment, a prototype. -/
def Defines (tree : SyntaxTree) (statement segment : NodeId) : Prop :=
  ∃ path operation block, tree.kind? statement = some (.objectStatement path operation block) ∧
    tree.BeginsWith path segment

/-- The operation of the statement is a copy of this source. -/
def Copies (tree : SyntaxTree) (statement source : NodeId) : Prop :=
  ∃ path operation block, tree.kind? statement = some (.objectStatement path (some operation) block) ∧
    tree.kind? operation = some (.valueCopy source)

/-- The statement creates a component. -/
def Creates (tree : SyntaxTree) (statement segment : NodeId) : Prop :=
  tree.Defines statement segment ∧ ∃ source, tree.Copies statement source

/-- The statement changes a component. -/
def Overwrites (tree : SyntaxTree) (statement segment : NodeId) : Prop :=
  tree.Defines statement segment ∧ ¬ ∃ source, tree.Copies statement source

/-- The statement creates a component, which extends the one that this segment names. -/
def Inherits (tree : SyntaxTree) (statement segment : NodeId) : Prop :=
  (∃ created, tree.Defines statement created) ∧
    ∃ source, tree.Copies statement source ∧ tree.BeginsWith source segment

/-- What some statements give, in the order of the statements. Each gives one thing, or none. -/
inductive Gathered (gives : NodeId → NodeId → Prop) : List NodeId → List NodeId → Prop
  | nil : Gathered gives [] []
  | one {statement segment : NodeId} {statements segments : List NodeId}
      (here : gives statement segment) (others : Gathered gives statements segments) :
      Gathered gives (statement :: statements) (segment :: segments)
  | none {statement : NodeId} {statements segments : List NodeId}
      (nothing : ∀ segment, ¬ gives statement segment) (others : Gathered gives statements segments) :
      Gathered gives (statement :: statements) segments

/-- The list has what the statement gives, and nothing if it gives nothing. -/
def IsGiven (gives : NodeId → NodeId → Prop) (statement : NodeId) (found : List NodeId) : Prop :=
  (∃ segment, found = [segment] ∧ gives statement segment) ∨
    found = [] ∧ ∀ segment, ¬ gives statement segment

namespace Gathered

variable {gives : NodeId → NodeId → Prop} {statements segments : List NodeId}

theorem flatMap {found : NodeId → List NodeId}
    (each : ∀ statement, IsGiven gives statement (found statement)) (statements : List NodeId) :
    Gathered gives statements (statements.flatMap found) := by
  induction statements with
  | nil => exact .nil
  | cons statement more ih =>
    rw [List.flatMap_cons]
    obtain ⟨segment, here, given⟩ | ⟨here, nothing⟩ := each statement
    · rw [here]
      exact .one given ih
    · rw [here]
      exact .none nothing ih

theorem mem (gathered : Gathered gives statements segments) {segment : NodeId}
    (member : segment ∈ segments) : ∃ statement ∈ statements, gives statement segment := by
  induction gathered with
  | nil => cases member
  | one here others ih =>
    rcases List.mem_cons.mp member with rfl | later
    · exact ⟨_, List.mem_cons_self, here⟩
    · obtain ⟨statement, among, given⟩ := ih later
      exact ⟨statement, List.mem_cons_of_mem _ among, given⟩
  | none nothing others ih =>
    obtain ⟨statement, among, given⟩ := ih member
    exact ⟨statement, List.mem_cons_of_mem _ among, given⟩

/-- Statements that are all different give different things, where a thing comes from one only. -/
theorem nodup (gathered : Gathered gives statements segments) (different : statements.Nodup)
    (origin : ∀ a b segment, gives a segment → gives b segment → a = b) : segments.Nodup := by
  induction gathered with
  | nil => exact List.nodup_nil
  | one here others ih =>
    obtain ⟨new, different⟩ := List.nodup_cons.mp different
    refine List.nodup_cons.mpr ⟨fun member => ?_, ih different⟩
    obtain ⟨other, among, given⟩ := others.mem member
    exact new (origin _ _ _ given here ▸ among)
  | none nothing others ih => exact ih (List.nodup_cons.mp different).2

end Gathered

section Walk

/-- The components of single statements, put together. -/
def gather (tree : SyntaxTree) (statements : List NodeId) : Components :=
  ⟨statements.flatMap fun statement => (tree.statementComponent statement).creations,
    statements.flatMap fun statement => (tree.statementComponent statement).overwrites,
    statements.flatMap fun statement => (tree.statementComponent statement).extended⟩

theorem gather_cons (statement : NodeId) (more : List NodeId) :
    tree.gather (statement :: more) = tree.statementComponent statement ++ tree.gather more := rfl

theorem gather_append (front behind : List NodeId) :
    tree.gather (front ++ behind) = tree.gather front ++ tree.gather behind := by
  induction front with
  | nil => rfl
  | cons statement more ih =>
    rw [List.cons_append, gather_cons, gather_cons, ih, Components.append_assoc]

/-- Nothing is found in what is no object statement. -/
theorem statementComponent_of_other {statement : NodeId}
    (other : ¬ tree.HasTag statement .objectStatement) :
    tree.statementComponent statement = .empty ∧ tree.blockOf statement = [] := by
  constructor
  · unfold statementComponent
    split
    · next kind => exact absurd (congrArg (Option.map NodeKind.tag) kind) other
    · rfl
  · unfold blockOf
    split
    · next kind => exact absurd (congrArg (Option.map NodeKind.tag) kind) other
    · rfl

/-- The components are those of the statements that a walk through the blocks passes. -/
theorem componentsWithin_eq (depth : Nat) (statements : List NodeId) :
    tree.componentsWithin depth statements = tree.gather (tree.statementsWithin depth statements) := by
  induction depth generalizing statements with
  | zero => rfl
  | succ depth deeper =>
    rw [componentsWithin]
    induction statements with
    | nil => rfl
    | cons statement more ih =>
      rw [List.foldr_cons, ih, deeper, statementsWithin_cons, gather_append]
      by_cases tagged : tree.HasTag statement .objectStatement
      · rw [if_pos tagged, gather_cons, Components.append_assoc]
      · obtain ⟨none, inside⟩ := statementComponent_of_other tagged
        rw [if_neg tagged, none, inside, statementsWithin_nil]
        rfl

theorem components_eq (tree : SyntaxTree) : tree.components = tree.gather tree.statementOrder := by
  unfold components
  split
  · next kind => rw [componentsWithin_eq, statementOrder, topStatements, kind]
  · next other =>
    have none : tree.topStatements = [] := by
      unfold topStatements
      split
      · next kind => exact absurd kind (other _)
      · rfl
    rw [statementOrder, none, statementsWithin_nil]
    rfl

end Walk

section Statement

theorem firstPrototype?_eq_some_iff {path segment : NodeId} :
    tree.firstPrototype? path = some segment ↔ tree.BeginsWith path segment := by
  unfold firstPrototype?
  constructor
  · intro found
    split at found
    · next first more kind =>
      split at found
      · next identifier named =>
        obtain rfl := Option.some.inj found
        exact ⟨more, identifier, kind, named⟩
      · cases found
    · cases found
  · rintro ⟨more, identifier, kind, named⟩
    simp only [kind, named]

theorem copySource?_eq_some_iff {operation : Option NodeId} {source : NodeId} :
    tree.copySource? operation = some source ↔
      ∃ copy, operation = some copy ∧ tree.kind? copy = some (.valueCopy source) := by
  unfold copySource?
  constructor
  · intro found
    split at found
    · next other kind =>
      obtain rfl := Option.some.inj found
      exact Option.bind_eq_some_iff.mp kind
    · cases found
  · rintro ⟨copy, rfl, kind⟩
    simp only [Option.bind_some, kind]

variable {statement path : NodeId} {operation : Option NodeId} {block : Option (List NodeId)}
  (kind : tree.kind? statement = some (.objectStatement path operation block))

include kind

theorem defines_iff (segment : NodeId) :
    tree.Defines statement segment ↔ tree.firstPrototype? path = some segment := by
  rw [firstPrototype?_eq_some_iff]
  constructor
  · rintro ⟨path', operation', block', kind', begins⟩
    obtain ⟨rfl, -, -⟩ := NodeKind.objectStatement.inj (Option.some.inj (kind.symm.trans kind'))
    exact begins
  · exact fun begins => ⟨path, operation, block, kind, begins⟩

theorem copies_iff (source : NodeId) :
    tree.Copies statement source ↔ tree.copySource? operation = some source := by
  rw [copySource?_eq_some_iff]
  constructor
  · rintro ⟨path', copy, block', kind', copied⟩
    obtain ⟨-, rfl, -⟩ := NodeKind.objectStatement.inj (Option.some.inj (kind.symm.trans kind'))
    exact ⟨copy, rfl, copied⟩
  · rintro ⟨copy, rfl, copied⟩
    exact ⟨path, copy, block, kind, copied⟩

/-- A statement without a component at its start gives nothing; a copy decides between the rest. -/
theorem statementComponent_eq : tree.statementComponent statement =
    ⟨((tree.copySource? operation).bind fun _ => tree.firstPrototype? path).toList,
      (if (tree.copySource? operation).isSome then none else tree.firstPrototype? path).toList,
      ((tree.firstPrototype? path).bind fun _ =>
        (tree.copySource? operation).bind tree.firstPrototype?).toList⟩ := by
  simp only [statementComponent, kind]
  cases tree.firstPrototype? path <;> cases tree.copySource? operation <;> rfl

end Statement

theorem IsGiven.of_option {gives : NodeId → NodeId → Prop} {statement : NodeId} {found : Option NodeId}
    (same : ∀ segment, gives statement segment ↔ found = some segment) :
    IsGiven gives statement found.toList := by
  cases found with
  | none => exact Or.inr ⟨rfl, fun segment given => nomatch (same segment).mp given⟩
  | some segment => exact Or.inl ⟨segment, rfl, (same segment).mpr rfl⟩

theorem isGiven_statementComponent (tree : SyntaxTree) (statement : NodeId) :
    let found := tree.statementComponent statement
    IsGiven tree.Creates statement found.creations ∧
      IsGiven tree.Overwrites statement found.overwrites ∧
      IsGiven tree.Inherits statement found.extended := by
  intro found
  by_cases tagged : tree.HasTag statement .objectStatement
  · obtain ⟨path, operation, block, kind⟩ := exists_path tagged
    have whole : found = _ := statementComponent_eq kind
    rw [whole]
    refine ⟨.of_option fun segment => ?_, .of_option fun segment => ?_, .of_option fun segment => ?_⟩
    · simp only [Creates, defines_iff kind, copies_iff kind, Option.bind_eq_some_iff, exists_and_right]
      exact and_comm
    · simp only [Overwrites, defines_iff kind, copies_iff kind, ← Option.isSome_iff_exists]
      cases (tree.copySource? operation).isSome <;> simp
    · simp only [Inherits, defines_iff kind, copies_iff kind, ← firstPrototype?_eq_some_iff,
        Option.bind_eq_some_iff, exists_and_right]
  · have nothing (segment : NodeId) : ¬ tree.Defines statement segment := by
      rintro ⟨path, operation, block, kind, -⟩
      exact tagged (congrArg (Option.map NodeKind.tag) kind)
    have none : found = .empty := (statementComponent_of_other tagged).1
    rw [none]
    exact ⟨Or.inr ⟨rfl, fun segment both => nothing segment both.1⟩,
      Or.inr ⟨rfl, fun segment both => nothing segment both.1⟩,
      Or.inr ⟨rfl, fun segment both => both.1.elim nothing⟩⟩

/-- The components of a tree follow the walk through its object statements. -/
theorem gathered_components (tree : SyntaxTree) :
    Gathered tree.Creates tree.statementOrder tree.components.creations ∧
      Gathered tree.Overwrites tree.statementOrder tree.components.overwrites ∧
      Gathered tree.Inherits tree.statementOrder tree.components.extended := by
  have given := tree.isGiven_statementComponent
  rw [components_eq]
  exact ⟨.flatMap (fun statement => (given statement).1) _,
    .flatMap (fun statement => (given statement).2.1) _,
    .flatMap (fun statement => (given statement).2.2) _⟩

theorem begins_of_mem_components {segment : NodeId} (member : segment ∈
    tree.components.creations ++ tree.components.overwrites ++ tree.components.extended) :
    ∃ path, tree.BeginsWith path segment := by
  obtain ⟨creations, overwrites, extended⟩ := tree.gathered_components
  rcases List.mem_append.mp member with defined | copied
  · rcases List.mem_append.mp defined with created | changed
    · obtain ⟨-, -, ⟨path, -, -, -, begins⟩, -⟩ := creations.mem created
      exact ⟨path, begins⟩
    · obtain ⟨-, -, ⟨path, -, -, -, begins⟩, -⟩ := overwrites.mem changed
      exact ⟨path, begins⟩
  · obtain ⟨-, -, -, source, -, begins⟩ := extended.mem copied
    exact ⟨source, begins⟩

section Origin

variable (ordered : tree.Ordered) {statement other segment : NodeId}

include ordered

/-- A segment tells the statement whose path it begins. -/
theorem parent_of_defines (defines : tree.Defines statement segment) :
    (tree.parent? segment).bind tree.parent? = some statement := by
  obtain ⟨path, operation, block, kind, more, identifier, listed, -⟩ := defines
  have first : tree.parent? segment = some path := by
    rw [ordered.parent_iff, children, listed]
    exact List.mem_cons_self
  rw [first, Option.bind_some, ordered.parent_iff, children_eq kind]
  exact List.mem_cons_self

/-- A segment that is copied from tells the copy, and with it the statement. -/
theorem parent_of_inherits (inherits : tree.Inherits statement segment) :
    ∃ copy source, (tree.parent? segment).bind tree.parent? = some copy ∧
      tree.kind? copy = some (.valueCopy source) ∧ tree.parent? copy = some statement := by
  obtain ⟨-, source, ⟨path, copy, block, kind, copied⟩, more, identifier, listed, -⟩ := inherits
  have first : tree.parent? segment = some source := by
    rw [ordered.parent_iff, children, listed]
    exact List.mem_cons_self
  refine ⟨copy, source, ?_, copied, ?_⟩
  · rw [first, Option.bind_some, ordered.parent_iff, children, copied]
    exact List.mem_cons_self
  · rw [ordered.parent_iff, children_eq kind]
    exact List.mem_cons_of_mem _ List.mem_cons_self

theorem eq_of_defines (first : tree.Defines statement segment) (second : tree.Defines other segment) :
    statement = other :=
  Option.some.inj ((parent_of_defines ordered first).symm.trans (parent_of_defines ordered second))

theorem eq_of_inherits (first : tree.Inherits statement segment)
    (second : tree.Inherits other segment) : statement = other := by
  obtain ⟨copy, source, above, -, parent⟩ := parent_of_inherits ordered first
  obtain ⟨copy', source', above', -, parent'⟩ := parent_of_inherits ordered second
  obtain rfl := Option.some.inj (above.symm.trans above')
  exact Option.some.inj (parent.symm.trans parent')

theorem not_inherits_of_defines (defines : tree.Defines statement segment) :
    ¬ tree.Inherits other segment := by
  intro inherits
  obtain ⟨copy, source, above, copied, -⟩ := parent_of_inherits ordered inherits
  obtain rfl := Option.some.inj (above.symm.trans (parent_of_defines ordered defines))
  obtain ⟨path, operation, block, kind, -⟩ := defines
  exact nomatch kind.symm.trans copied

end Origin

/-- No segment stands in two of the lists, or in one of them twice. -/
theorem nodup_components (ordered : tree.Ordered) (different : tree.statementOrder.Nodup) :
    (tree.components.creations ++ tree.components.overwrites ++ tree.components.extended).Nodup := by
  obtain ⟨creations, overwrites, extended⟩ := tree.gathered_components
  refine List.nodup_append.mpr ⟨List.nodup_append.mpr ⟨?_, ?_, ?_⟩, ?_, ?_⟩
  · exact creations.nodup different fun _ _ _ first second => eq_of_defines ordered first.1 second.1
  · exact overwrites.nodup different fun _ _ _ first second => eq_of_defines ordered first.1 second.1
  · rintro segment created _ changed rfl
    obtain ⟨statement, -, creates⟩ := creations.mem created
    obtain ⟨other, -, overwrites⟩ := overwrites.mem changed
    obtain rfl := eq_of_defines ordered creates.1 overwrites.1
    exact overwrites.2 creates.2
  · exact extended.nodup different fun _ _ _ first second => eq_of_inherits ordered first second
  · rintro segment member _ copied rfl
    obtain ⟨other, -, inherits⟩ := extended.mem copied
    rcases List.mem_append.mp member with created | changed
    · obtain ⟨statement, -, creates⟩ := creations.mem created
      exact not_inherits_of_defines ordered creates.1 inherits
    · obtain ⟨statement, -, overwrites⟩ := overwrites.mem changed
      exact not_inherits_of_defines ordered overwrites.1 inherits

end SyntaxTree

namespace TemplateFile

open SyntaxTree (Gathered)

/-- In every template, whatever is put into its file later, the object statements at its top and in all
blocks stand in one order, that of the text, in which a statement comes before those in its block. In
this order each statement whose path begins with a prototype gives that segment to the creations if it
copies and to the overwrites otherwise, and the creations give the prototypes that they copy from to what
is extended. The lists hold nothing else and nothing twice, and all entries in them are those of
prototypes. -/
theorem components_by_statement (uri : FileUri) (text : String) (insertions : List Insertion) :
    let tree := (parseTemplate text).tree
    let file := ((ofText uri text).insertAll insertions).2
    let components := file.components
    ∃ order : List NodeId,
      (∀ id, id ∈ order ↔ tree.HasTag id .objectStatement) ∧
      (order.Pairwise fun a b => (tree.range a).start < (tree.range b).start) ∧
      (∀ statement path operation block,
        tree.kind? statement = some (.objectStatement path operation (some block)) →
        ∀ inner ∈ block, (tree.range statement).start < (tree.range inner).start) ∧
      Gathered tree.Creates order components.creations ∧
      Gathered tree.Overwrites order components.overwrites ∧
      Gathered tree.Inherits order components.extended ∧
      (components.creations ++ components.overwrites ++ components.extended).Nodup ∧
      ∀ id ∈ components.creations ++ components.overwrites ++ components.extended, ∃ entry,
        file.entries[id]? = some entry ∧ entry.content = .treeNode id ∧
          entry.tag = .prototypePathSegment := by
  intro tree file components
  obtain ⟨-, -, -, -, -, categorised, -⟩ :=
    ofTree_entries uri text (parseTemplate text).tree (parseTemplate text).errors
  have grown : (ofText uri text).Extends file := .insertAll _ insertions
  have whole : components = tree.components := grown.components.trans categorised
  obtain ⟨exact, sorted, blocks⟩ := parseTemplate_statementOrder text
  have ordered : tree.Ordered :=
    (SyntaxTree.ofTemplate_follows (parseTemplate text).template).ordered rfl
  have different : tree.statementOrder.Nodup := by
    refine sorted.imp ?_
    rintro statement _ less rfl
    exact Nat.lt_irrefl _ less
  obtain ⟨creations, overwrites, extended⟩ := tree.gathered_components
  rw [whole]
  refine ⟨tree.statementOrder, exact, sorted, ?_, creations, overwrites, extended,
    SyntaxTree.nodup_components ordered different, ?_⟩
  · intro statement path operation block kind inner inside
    refine blocks statement inner ?_
    rw [SyntaxTree.blockOf, kind]
    exact inside
  · intro id member
    obtain ⟨path, more, identifier, -, named⟩ := SyntaxTree.begins_of_mem_components member
    obtain ⟨node, held, kind⟩ := Option.map_eq_some_iff.mp named
    obtain ⟨entry, first, content, tag, -⟩ := entry_of_node held
    exact ⟨entry, grown.getElem? first, content, by rw [tag, kind]; rfl⟩

/-- The statement in the block is numbered before the one around it, and yet comes behind it. -/
example :
    let tree := (parseTemplate
      "prototype(A:B) < prototype(C:D) \x7b\nprototype(E:F).x \x7d\nb = [").tree
    tree.statementOrder = [9, 8, 14] ∧ tree.components = ⟨[0], [5], [2]⟩ := by
  decide +kernel

end TemplateFile

end FusionAtlas
