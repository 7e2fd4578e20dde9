import FusionAtlas.SyntaxTree

/-!
The components a template defines. A statement whose path starts with a prototype creates that
component if it copies something, and otherwise changes an existing one; what a creation copies from
is what the component extends.
-/

set_option autoImplicit false
set_option relaxedAutoImplicit false

namespace FusionAtlas

/-- Prototype segments by the part they play, each list in source order. -/
structure Components where
  creations : List NodeId
  overwrites : List NodeId
  extended : List NodeId
  deriving DecidableEq, Repr, Inhabited

namespace Components

def empty : Components := ⟨[], [], []⟩

/-- Those of two parts of a template, the first before the second. -/
def append (a b : Components) : Components :=
  ⟨a.creations ++ b.creations, a.overwrites ++ b.overwrites, a.extended ++ b.extended⟩

instance : Append Components := ⟨append⟩

end Components

namespace SyntaxTree

/-- The first segment of a path, if it is a prototype. -/
def firstPrototype? (tree : SyntaxTree) (path : NodeId) : Option NodeId :=
  match tree.kind? path with
  | some (.objectPath (first :: _)) =>
    match tree.kind? first with
    | some (.prototypePathSegment _) => some first
    | _ => none
  | _ => none

/-- What an operation copies from, if it is a copy. -/
def copySource? (tree : SyntaxTree) (operation : Option NodeId) : Option NodeId :=
  match operation.bind tree.kind? with
  | some (.valueCopy source) => some source
  | _ => none

/-- The component of a statement, without those in its block. -/
def statementComponent (tree : SyntaxTree) (statement : NodeId) : Components :=
  match tree.kind? statement with
  | some (.objectStatement path operation _) =>
    match tree.firstPrototype? path, tree.copySource? operation with
    | some first, some source => ⟨[first], [], (tree.firstPrototype? source).toList⟩
    | some first, none => ⟨[], [first], []⟩
    | none, _ => .empty
  | _ => .empty

/-- The statements in the block of a statement. -/
def blockOf (tree : SyntaxTree) (statement : NodeId) : List NodeId :=
  match tree.kind? statement with
  | some (.objectStatement _ _ (some block)) => block
  | _ => []

/-- The components of statements and of the blocks in them, down to a depth. -/
def componentsWithin (tree : SyntaxTree) : Nat → List NodeId → Components
  | 0, _ => .empty
  | depth + 1, statements =>
    statements.foldr
      (fun statement behind =>
        tree.statementComponent statement ++
          (tree.componentsWithin depth (tree.blockOf statement) ++ behind))
      .empty

/-- The components of a template. Blocks cannot nest deeper than there are nodes. -/
def components (tree : SyntaxTree) : Components :=
  match tree.root.bind tree.kind? with
  | some (.fusionFile statements) => tree.componentsWithin tree.size statements
  | _ => .empty

end SyntaxTree

end FusionAtlas
