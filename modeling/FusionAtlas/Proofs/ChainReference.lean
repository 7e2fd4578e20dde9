import FusionAtlas.Proofs.LookupProgram
import Mathlib.Data.List.Chain

/-!
What a walk along a chain comes by. The walk stops at every call and looks classes up as it goes; its
steps are those of one pass over all segments behind the helper in which looking a class up is a fixed
function. Main statement: `Chain.follow_eq_reference`.
-/

set_option autoImplicit false
set_option relaxedAutoImplicit false

namespace FusionAtlas

/-- How far a pass over the segments has come: the class the next segment is matched with, unless the
chain has ended, and the steps so far. -/
structure ChainPass where
  cursor : Option LoadedClass
  steps : List ChainStep
  deriving DecidableEq, Repr

namespace ChainPass

/-- Pass one segment, where `find` looks classes up. Only a call of a method of the class reached so far
counts; the first such method leads on to the class it returns, if it returns one that is found. -/
def visit (tree : SyntaxTree) (find : String → Option LoadedClass) (helper : ChainStart)
    (pass : ChainPass) (segment : NodeId) : ChainPass :=
  match pass.cursor, tree.kind? segment with
  | some cls, some (.objectFunctionPathNode name _) =>
    match cls.declaration.methods.find? fun method => method.answersTo name with
    | some method =>
      let first := (tree.range segment).start
      let range : ByteRange := ⟨first, first + Text.byteSize name.toList⟩
      ⟨method.returnType.className?.bind find,
        pass.steps ++ [⟨helper, cls, method, segment, range⟩]⟩
    | none => pass
  | _, _ => pass

/-- The steps of a pass over segments that starts at the class of the helper. -/
def reference (tree : SyntaxTree) (find : String → Option LoadedClass) (helper : ChainStart)
    (segments : List NodeId) : List ChainStep :=
  (segments.foldl (visit tree find helper) ⟨some helper.cls, []⟩).steps

variable {tree : SyntaxTree} {find : String → Option LoadedClass} {helper : ChainStart}

theorem visit_cases (tree : SyntaxTree) (find : String → Option LoadedClass) (helper : ChainStart)
    (cursor : Option LoadedClass) (segment : NodeId) :
    (∀ steps, visit tree find helper ⟨cursor, steps⟩ segment = ⟨cursor, steps⟩) ∨
      ∃ step : ChainStep, cursor = some step.cls ∧ step.segment = segment ∧
        ∀ steps, visit tree find helper ⟨cursor, steps⟩ segment =
          ⟨step.method.returnType.className?.bind find, steps ++ [step]⟩ := by
  cases cursor with
  | none => exact Or.inl fun _ => rfl
  | some cls =>
    by_cases call : ∃ name args, tree.kind? segment = some (.objectFunctionPathNode name args)
    · obtain ⟨name, args, kind⟩ := call
      cases search : cls.declaration.methods.find? fun method => method.answersTo name with
      | none => exact Or.inl fun _ => by simp only [visit, kind, search]
      | some method =>
        let first := (tree.range segment).start
        let range : ByteRange := ⟨first, first + Text.byteSize name.toList⟩
        refine Or.inr ⟨⟨helper, cls, method, segment, range⟩, rfl, rfl, fun _ => ?_⟩
        simp only [visit, kind, search, first, range]
    · refine Or.inl fun _ => ?_
      unfold visit
      split
      · rename_i name args _ kind
        exact absurd ⟨name, args, kind⟩ call
      · rfl

theorem steps_foldl (segments : List NodeId) (cursor : Option LoadedClass) (steps : List ChainStep) :
    (segments.foldl (visit tree find helper) ⟨cursor, steps⟩).steps =
      steps ++ (segments.foldl (visit tree find helper) ⟨cursor, []⟩).steps := by
  induction segments generalizing cursor steps with
  | nil => exact (List.append_nil steps).symm
  | cons segment segments ih =>
    rw [List.foldl_cons, List.foldl_cons]
    rcases visit_cases tree find helper cursor segment with skip | ⟨step, -, -, call⟩
    · rw [skip, skip, ih]
    · rw [call, call, ih, ih _ ([] ++ [step]), List.nil_append, List.append_assoc]

/-- The segments of the steps are some of the segments, in their order. -/
theorem map_segment_sublist (segments : List NodeId) (cursor : Option LoadedClass) :
    ((segments.foldl (visit tree find helper) ⟨cursor, []⟩).steps.map (·.segment)).Sublist
      segments := by
  induction segments generalizing cursor with
  | nil => exact List.Sublist.slnil
  | cons segment segments ih =>
    rw [List.foldl_cons]
    rcases visit_cases tree find helper cursor segment with skip | ⟨step, -, rfl, call⟩
    · rw [skip]
      exact (ih cursor).cons segment
    · rw [call, steps_foldl, List.nil_append, List.singleton_append, List.map_cons]
      exact (ih _).cons_cons step.segment

/-- A step starts at the class that the method of the step before leads on to. -/
theorem isChain_steps (segments : List NodeId) (cursor : Option LoadedClass) :
    let steps := (segments.foldl (visit tree find helper) ⟨cursor, []⟩).steps
    (∀ step ∈ steps.head?, cursor = some step.cls) ∧
      steps.IsChain fun step next =>
        step.method.returnType.className?.bind find = some next.cls := by
  induction segments generalizing cursor with
  | nil => exact ⟨fun _ member => (nomatch member), .nil⟩
  | cons segment segments ih =>
    simp only [List.foldl_cons]
    rcases visit_cases tree find helper cursor segment with skip | ⟨step, reached, -, call⟩
    · rw [skip]
      exact ih cursor
    · obtain ⟨first, linked⟩ := ih (step.method.returnType.className?.bind find)
      rw [call, steps_foldl, List.nil_append, List.singleton_append]
      refine ⟨?_, List.isChain_cons.mpr ⟨fun next member => first next member, linked⟩⟩
      intro other member
      obtain rfl := Option.some.inj member
      exact reached

end ChainPass

namespace Chain

/-- The class a method leads on to is the one any later lookup on the same disk finds. -/
theorem nextClass_spec (disk : Disk) (method : MethodDeclaration) (library : ClassLibrary) :
    let answer := (nextClass disk method).run library
    ClassLibrary.Grows disk library answer.2 ∧
      ∀ final, ClassLibrary.Grows disk answer.2 final →
        answer.1 = method.returnType.className?.bind fun fqcn => (final.lookup disk fqcn).1 := by
  unfold nextClass
  cases method.returnType with
  | unresolved => exact ⟨.refl, fun _ _ => rfl⟩
  | primitive keyword => exact ⟨.refl, fun _ _ => rfl⟩
  | classRef fqcn =>
    exact ⟨.lookup library disk fqcn, fun _ grows => (ClassLibrary.lookup_of_grows grows).symm⟩

/-- The step that a call makes. It covers the word of the call, at the start of its segment. -/
def stepAt (tree : SyntaxTree) (helper : ChainStart) (cls : LoadedClass) (segment : NodeId)
    (name : String) (method : MethodDeclaration) : ChainStep :=
  let first := (tree.range segment).start
  ⟨helper, cls, method, segment, ⟨first, first + Text.byteSize name.toList⟩⟩

end Chain

namespace ChainPass

variable {tree : SyntaxTree} {find : String → Option LoadedClass} {helper : ChainStart}
  {cls : LoadedClass} {segment : NodeId}

theorem visit_of_skip (steps : List ChainStep) (skip : Chain.callOf? tree cls segment = none) :
    visit tree find helper ⟨some cls, steps⟩ segment = ⟨some cls, steps⟩ := by
  unfold visit
  simp only
  split
  · rename_i name args reached kind
    obtain rfl := Option.some.inj reached
    simp only [Chain.callOf?, kind, Option.map_eq_none_iff, ClassDeclaration.method?] at skip
    rw [skip]
  · rfl

theorem visit_of_call (steps : List ChainStep) {name : String} {method : MethodDeclaration}
    (call : Chain.callOf? tree cls segment = some (name, method)) :
    visit tree find helper ⟨some cls, steps⟩ segment =
      ⟨method.returnType.className?.bind find,
        steps ++ [Chain.stepAt tree helper cls segment name method]⟩ := by
  unfold Chain.callOf? at call
  split at call
  · rename_i written args kind
    obtain ⟨found, search, equal⟩ := Option.map_eq_some_iff.mp call
    obtain ⟨rfl, rfl⟩ := Prod.mk.injEq .. ▸ equal
    rw [ClassDeclaration.method?] at search
    simp only [visit, kind, search, Chain.stepAt]
  · cases call

end ChainPass

namespace ChainWalk

variable {tree : SyntaxTree} {disk : Disk} {helper : ChainStart} {cls : LoadedClass}
  {segment : NodeId} {ahead : List NodeId} {library : ClassLibrary}

/-- Collecting takes the next call, and collects behind it. -/
theorem run_collect (walk : ChainWalk) :
    (walk.collect tree disk helper).run library =
      match (walk.next tree disk helper).run library with
      | (none, after) => ([], after)
      | (some (step, behind), after) =>
        let more := (behind.collect tree disk helper).run after
        (step :: more.1, more.2) := by
  change walk.collect tree disk helper library = _
  rw [collect]
  split
  · rename_i found
    rw [found]
  · rename_i found
    rw [found]
    rfl

theorem collect_ended :
    (collect tree disk helper ⟨none, ahead⟩).run library = ([], library) := by
  rw [run_collect]
  rfl

theorem collect_nil :
    (collect tree disk helper ⟨some cls, []⟩).run library = ([], library) := by
  rw [run_collect]
  rfl

theorem collect_of_skip (skip : Chain.callOf? tree cls segment = none) :
    (collect tree disk helper ⟨some cls, segment :: ahead⟩).run library =
      (collect tree disk helper ⟨some cls, ahead⟩).run library := by
  rw [run_collect, run_collect]
  simp only [next, nextFrom, skip]

theorem collect_of_call {name : String} {method : MethodDeclaration}
    (call : Chain.callOf? tree cls segment = some (name, method)) :
    (collect tree disk helper ⟨some cls, segment :: ahead⟩).run library =
      let reached := (Chain.nextClass disk method).run library
      let more := (collect tree disk helper ⟨reached.1, ahead⟩).run reached.2
      (Chain.stepAt tree helper cls segment name method :: more.1, more.2) := by
  rw [run_collect]
  simp only [next, nextFrom, call]
  rfl

/-- The steps of a walk are those of a pass in which a class is what a lookup finds at the end of the
walk, or later on the same disk. -/
theorem collect_eq_pass {final : ClassLibrary} (cursor : Option LoadedClass)
    (grows : ClassLibrary.Grows disk
      ((collect tree disk helper ⟨cursor, ahead⟩).run library).2 final) :
    ((collect tree disk helper ⟨cursor, ahead⟩).run library).1 =
        (ahead.foldl (ChainPass.visit tree (fun fqcn => (final.lookup disk fqcn).1) helper)
          ⟨cursor, []⟩).steps ∧
      ClassLibrary.Grows disk library
        ((collect tree disk helper ⟨cursor, ahead⟩).run library).2 := by
  -- `final` stays the same while the library grows: each call needs that it is asked the same there.
  induction ahead generalizing cursor library with
  | nil =>
    cases cursor with
    | none => exact ⟨by rw [collect_ended]; rfl, by rw [collect_ended]; exact .refl⟩
    | some cls => exact ⟨by rw [collect_nil]; rfl, by rw [collect_nil]; exact .refl⟩
  | cons segment ahead ih =>
    cases cursor with
    | none =>
      rw [collect_ended] at grows ⊢
      obtain ⟨steps, -⟩ := ih none (by rw [collect_ended]; exact grows)
      rw [collect_ended] at steps
      exact ⟨by rw [List.foldl_cons]; exact steps, .refl⟩
    | some cls =>
      cases call : Chain.callOf? tree cls segment with
      | none =>
        rw [collect_of_skip call] at grows ⊢
        rw [List.foldl_cons, ChainPass.visit_of_skip [] call]
        exact ih (some cls) grows
      | some found =>
        obtain ⟨name, method⟩ := found
        rw [collect_of_call call] at grows ⊢
        obtain ⟨looked, leads⟩ := Chain.nextClass_spec disk method library
        obtain ⟨steps, walked⟩ := ih _ grows
        rw [List.foldl_cons, ChainPass.visit_of_call [] call, ChainPass.steps_foldl,
          ← leads final (walked.trans grows)]
        exact ⟨congrArg (Chain.stepAt tree helper cls segment name method :: ·) steps,
          looked.trans walked⟩

end ChainWalk

namespace Chain

variable {tree : SyntaxTree} {helpers : BoundHelpers} {disk : Disk} {objectNode : NodeId}
  {library started : ClassLibrary} {helper : ChainStart}

/-- A chain that starts is an object node whose first parts name a helper bound to a class that is
found. -/
theorem start_eq_ok
    (begun : (start tree helpers disk objectNode).run library = (.ok helper, started)) :
    ∃ path consumed fqcn,
      tree.kind? objectNode = some (.objectNode path) ∧
      helperOf helpers (parts tree path) = .ok (consumed, helper.identifier, fqcn) ∧
      library.lookup disk fqcn = (some helper.cls, started) ∧
      helper.remaining = path.drop consumed := by
  unfold start at begun
  split at begun
  · rename_i path kind
    split at begun
    · cases begun
    · cases bound : helperOf helpers (parts tree path) with
      | error abort =>
        rw [bound] at begun
        cases begun
      | ok found =>
        obtain ⟨consumed, identifier, fqcn⟩ := found
        rw [bound] at begun
        simp only [LookupProgram.run_bind, LookupProgram.run_findClass] at begun
        cases looked : library.lookup disk fqcn with
        | mk answer after =>
          rw [looked] at begun
          cases answer with
          | none => cases begun
          | some cls =>
            cases begun
            exact ⟨path, consumed, fqcn, kind, bound, looked, rfl⟩
  · cases begun

/-- The calls followed on a chain are those of one pass over the segments behind the helper, from the
helper's class on, in which a class is what looking it up finds when the chain has been followed. They
stand on the chain in their order, each once; each starts at the class that the method of the one
before returns; and the lookups on the way change no answer of the library on this disk. -/
theorem follow_eq_reference
    (begun : (start tree helpers disk objectNode).run library = (.ok helper, started)) :
    ∃ steps final path consumed fqcn,
      let find := fun fqcn => (ClassLibrary.lookup final disk fqcn).1
      (follow tree helpers disk objectNode).run library = (.ok (helper, steps), final) ∧
      tree.kind? objectNode = some (.objectNode path) ∧
      helperOf helpers (parts tree path) = .ok (consumed, helper.identifier, fqcn) ∧
      find fqcn = some helper.cls ∧
      steps = ChainPass.reference tree find helper (path.drop consumed) ∧
      (steps.map (·.segment)).Sublist (path.drop consumed) ∧
      steps.IsChain (fun step next =>
        step.method.returnType.className?.bind find = some next.cls) ∧
      ∀ name, (find name).map (·.declaration) =
        (library.lookup disk name).1.map (·.declaration) := by
  obtain ⟨path, consumed, fqcn, kind, bound, found, remaining⟩ := start_eq_ok begun
  let walked : List ChainStep × ClassLibrary := (steps tree disk helper).run started
  obtain ⟨equal, grows⟩ :
      walked.1 = ChainPass.reference tree (fun fqcn => (walked.2.lookup disk fqcn).1) helper
        (path.drop consumed) ∧ ClassLibrary.Grows disk started walked.2 := by
    rw [← remaining]
    exact ChainWalk.collect_eq_pass (some helper.cls) .refl
  have looked : ClassLibrary.Grows disk library walked.2 := by
    have first := ClassLibrary.Grows.lookup library disk fqcn
    rw [found] at first
    exact first.trans grows
  refine ⟨walked.1, walked.2, path, consumed, fqcn, ?_, kind, bound, ?_, equal, ?_, ?_, ?_⟩
  · rw [follow, LookupProgram.run_bind, begun]
    rfl
  · have behind : ClassLibrary.Grows disk (library.lookup disk fqcn).2 walked.2 := by
      rw [found]
      exact grows
    have kept := ClassLibrary.lookup_of_grows behind
    rw [found] at kept
    exact kept
  · rw [equal]
    exact ChainPass.map_segment_sublist _ _
  · rw [equal]
    exact (ChainPass.isChain_steps _ _).2
  · exact fun name => ClassLibrary.declaration_of_grows looked name

private def sampleMethod (name : String) (returnType : ReturnType) : MethodDeclaration :=
  ⟨name, name, false, [], returnType, "", none, ⟨0, 0⟩, ⟨⟨0, 0⟩, ⟨0, 0⟩⟩⟩

private def sampleClass (identity : Nat) (fqcn : String) (methods : List MethodDeclaration) :
    LoadedClass :=
  ⟨identity, ⟨fqcn, "A", methods, ⟨"file:///A.php"⟩, ⟨0, 0⟩, ⟨⟨0, 0⟩, ⟨0, 0⟩⟩⟩⟩

private def sampleLibrary : ClassLibrary :=
  ⟨[⟨"A", ⟨[]⟩, "php",
    [("A\\Foo", sampleClass 0 "A\\Foo" [sampleMethod "make" (.classRef "A\\Bar")]),
      ("A\\Bar", sampleClass 1 "A\\Bar" [sampleMethod "end" .unresolved])]⟩], 2⟩

/-- The chain `Foo.make().end.other().end()`. -/
private def sampleTree : SyntaxTree :=
  ⟨#[⟨.objectPathNode "Foo", ⟨0, 3⟩, none⟩, ⟨.objectFunctionPathNode "make" [], ⟨4, 10⟩, none⟩,
    ⟨.objectPathNode "end", ⟨11, 14⟩, none⟩, ⟨.objectFunctionPathNode "other" [], ⟨15, 22⟩, none⟩,
    ⟨.objectFunctionPathNode "end" [], ⟨23, 28⟩, none⟩,
    ⟨.objectNode [0, 1, 2, 3, 4], ⟨0, 28⟩, none⟩], none⟩

private def sampleHelpers : BoundHelpers := .bind .empty "Foo" "\\A\\Foo"

private def sampleStart : ChainStart :=
  ⟨"Foo", sampleClass 0 "A\\Foo" [sampleMethod "make" (.classRef "A\\Bar")], ⟨0, 3⟩, 5, [1, 2, 3, 4]⟩

/-- On a chain through two classes a property and a call of no method are passed over. -/
theorem follow_through_two_classes :
    (start sampleTree sampleHelpers .empty 5).run sampleLibrary =
        (.ok sampleStart, sampleLibrary) ∧
      ∃ steps final,
        (follow sampleTree sampleHelpers .empty 5).run sampleLibrary =
          (.ok (sampleStart, steps), final) ∧
        steps.map (·.segment) = [1, 4] ∧
        steps.IsChain fun step next =>
          (step.method.returnType.className?.bind fun fqcn => (final.lookup .empty fqcn).1) =
            some next.cls := by
  have begun : (start sampleTree sampleHelpers .empty 5).run sampleLibrary =
      (.ok sampleStart, sampleLibrary) := by rfl
  obtain ⟨steps, final, -, -, -, followed, -, -, -, -, -, linked, -⟩ := follow_eq_reference begun
  refine ⟨begun, steps, final, followed, ?_, linked⟩
  have ran : ((follow sampleTree sampleHelpers .empty 5).run sampleLibrary).1.toOption.map
      (fun found => found.2.map (·.segment)) = some [1, 4] := by decide +kernel
  rw [followed] at ran
  exact Option.some.inj ran

end Chain

end FusionAtlas
