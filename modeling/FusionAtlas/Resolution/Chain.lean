import FusionAtlas.Configuration.BoundHelpers
import FusionAtlas.HostCode.ClassLibrary
import FusionAtlas.SyntaxTree

/-!
Following a chain of identifiers through classes. The chain starts with a bound helper; each call
behind it that names a method of the class reached so far leads on to the class that method returns.
Classes come from the library, which loads what it does not know yet.
-/

set_option autoImplicit false
set_option relaxedAutoImplicit false

namespace FusionAtlas

/-- Look a class up, loading it if need be. -/
def findClass (disk : Disk) (fqcn : String) : StateM ClassLibrary (Option LoadedClass) :=
  fun library => library.lookup disk fqcn

/-- Why a chain is not followed. -/
inductive ChainAbort where
  | noBoundHelpers
  | notAHelper
  | staticCallBinding (identifier : String)
  | notAClassBinding (identifier : String)
  | helperClassMissing (fqcn : String)
  deriving DecidableEq, Repr

namespace ChainAbort

def message : ChainAbort → String
  | noBoundHelpers => "no helpers are bound"
  | notAHelper => "chain does not start with a bound helper"
  | staticCallBinding identifier => "helper " ++ identifier ++ " is bound to a static call"
  | notAClassBinding identifier => "helper " ++ identifier ++ " is not bound to a class name"
  | helperClassMissing fqcn => "class " ++ fqcn ++ " of a bound helper was not found"

end ChainAbort

/-- The start of a chain: the helper, its class, the bytes of its identifier, and the segments
behind it. -/
structure ChainStart where
  identifier : String
  cls : LoadedClass
  range : ByteRange
  objectNode : NodeId
  remaining : List NodeId
  deriving DecidableEq, Repr

/-- A call on a chain, matched with a method of the class reached there. -/
structure ChainStep where
  helper : ChainStart
  cls : LoadedClass
  method : MethodDeclaration
  segment : NodeId
  range : ByteRange
  deriving DecidableEq, Repr

namespace Chain

/-- The identifiers at the start of a chain. -/
def parts (tree : SyntaxTree) (path : List NodeId) : List String :=
  ((path.map fun segment => (tree.kind? segment).bind NodeKind.chainValue?).takeWhile
    Option.isSome).filterMap id

/-- The bytes of the first segments of a chain. -/
def rangeOf (tree : SyntaxTree) (path : List NodeId) (count : Nat) : ByteRange :=
  let segments := path.take count
  ⟨((segments.head?.map tree.range).getD (.emptyAt 0)).start,
    ((segments.getLast?.map tree.range).getD (.emptyAt 0)).stop⟩

/-- The class name of the helper that a chain starts with, how many segments name it, and its
identifier. -/
def helperOf (helpers : BoundHelpers) (parts : List String) :
    Except ChainAbort (Nat × String × String) :=
  match helpers.longestMatch? parts with
  | none => .error .notAHelper
  | some found =>
    match found.binding with
    | .className fqcn => .ok (found.consumed, found.identifier, fqcn)
    | .staticCall _ => .error (.staticCallBinding found.identifier)
    | .other => .error (.notAClassBinding found.identifier)

/-- Match the start of a chain with the bound helpers, and find the helper's class. -/
def start (tree : SyntaxTree) (helpers : BoundHelpers) (disk : Disk) (objectNode : NodeId) :
    StateM ClassLibrary (Except ChainAbort ChainStart) := do
  match tree.kind? objectNode with
  | some (.objectNode path) =>
    if helpers.isEmpty then return .error .noBoundHelpers
    match helperOf helpers (parts tree path) with
    | .error abort => return .error abort
    | .ok (consumed, identifier, fqcn) =>
      match ← findClass disk fqcn with
      | none => return .error (.helperClassMissing fqcn)
      | some cls =>
        return .ok ⟨identifier, cls, rangeOf tree path consumed, objectNode, path.drop consumed⟩
  | _ => return .error .notAHelper

/-- The class a method leads on to. -/
def nextClass (disk : Disk) (method : MethodDeclaration) :
    StateM ClassLibrary (Option LoadedClass) :=
  match method.returnType with
  | .classRef fqcn => findClass disk fqcn
  | _ => return none

/-- The method that a segment calls on a class, with its written name. -/
def callOf? (tree : SyntaxTree) (cls : LoadedClass) (segment : NodeId) :
    Option (String × MethodDeclaration) :=
  match tree.kind? segment with
  | some (.objectFunctionPathNode name _) =>
    (cls.declaration.method? name).map fun method => (name, method)
  | _ => none

end Chain

/-- A walk along a chain: the class reached, unless the chain has ended, and the segments ahead. -/
structure ChainWalk where
  cursor : Option LoadedClass
  ahead : List NodeId
  deriving DecidableEq, Repr

namespace ChainWalk

/-- The walk that has just left the helper. -/
def ofStart (helper : ChainStart) : ChainWalk := ⟨some helper.cls, helper.remaining⟩

/-- The next call among the segments from a class on, and the walk behind it. A segment that calls no
method of the class is passed over. The walk behind has ended if the method returns no class that is
found. -/
def nextFrom (tree : SyntaxTree) (disk : Disk) (helper : ChainStart) (cls : LoadedClass) :
    List NodeId → StateM ClassLibrary (Option (ChainStep × ChainWalk))
  | [] => return none
  | segment :: ahead =>
    match Chain.callOf? tree cls segment with
    | none => nextFrom tree disk helper cls ahead
    | some (name, method) => do
      let cursor ← Chain.nextClass disk method
      let first := (tree.range segment).start
      let range : ByteRange := ⟨first, first + Text.byteSize name.toList⟩
      return some (⟨helper, cls, method, segment, range⟩, ⟨cursor, ahead⟩)

/-- The next call on the chain, and the walk behind it. -/
def next (tree : SyntaxTree) (disk : Disk) (helper : ChainStart) (walk : ChainWalk) :
    StateM ClassLibrary (Option (ChainStep × ChainWalk)) :=
  match walk.cursor with
  | some cls => nextFrom tree disk helper cls walk.ahead
  | none => return none

theorem length_ahead_of_nextFrom {tree : SyntaxTree} {disk : Disk} {helper : ChainStart}
    {cls : LoadedClass} {ahead : List NodeId} {library after : ClassLibrary} {step : ChainStep}
    {behind : ChainWalk}
    (found : (nextFrom tree disk helper cls ahead).run library = (some (step, behind), after)) :
    behind.ahead.length < ahead.length := by
  induction ahead with
  | nil => cases found
  | cons segment ahead ih =>
    rw [nextFrom] at found
    split at found
    · exact Nat.lt_succ_of_lt (ih found)
    · cases found
      exact Nat.lt_succ_self ahead.length

theorem length_ahead_of_next {tree : SyntaxTree} {disk : Disk} {helper : ChainStart}
    {walk behind : ChainWalk} {library after : ClassLibrary} {step : ChainStep}
    (found : (walk.next tree disk helper).run library = (some (step, behind), after)) :
    behind.ahead.length < walk.ahead.length := by
  rw [next] at found
  split at found
  · exact length_ahead_of_nextFrom found
  · cases found

/-- All calls on the chain, taken one after the other until there is no next one. -/
def collect (tree : SyntaxTree) (disk : Disk) (helper : ChainStart) (walk : ChainWalk) :
    StateM ClassLibrary (List ChainStep) := fun library =>
  match _found : (walk.next tree disk helper).run library with
  | (none, library) => ([], library)
  | (some (step, behind), library) =>
    let (more, library) := (behind.collect tree disk helper).run library
    (step :: more, library)
termination_by walk.ahead.length
decreasing_by exact length_ahead_of_next _found

end ChainWalk

namespace Chain

/-- All calls on a chain behind its start. -/
def steps (tree : SyntaxTree) (disk : Disk) (helper : ChainStart) :
    StateM ClassLibrary (List ChainStep) :=
  (ChainWalk.ofStart helper).collect tree disk helper

def follow (tree : SyntaxTree) (helpers : BoundHelpers) (disk : Disk) (objectNode : NodeId) :
    StateM ClassLibrary (Except ChainAbort (ChainStart × List ChainStep)) := do
  match ← start tree helpers disk objectNode with
  | .error abort => return .error abort
  | .ok helper => return .ok (helper, ← steps tree disk helper)

end Chain

end FusionAtlas
