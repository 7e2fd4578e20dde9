import FusionAtlas.Proofs.ResolutionPlan
import FusionAtlas.Proofs.Scanning

/-!
Where resolution puts what it attaches. The range of each planned entry is told by the node it is found at:
the segments of a chain, the name at the start of a call, the inside of a string, or the name in a filter of
one. Main statement: `covers_of_planned`.
-/

set_option autoImplicit false
set_option relaxedAutoImplicit false

namespace FusionAtlas

open ClassLibrary (WellKeyed Grows)
open LookupProgram
open Text (StandsAt byteSize)

namespace Text

variable {α : Type} {pattern : Pattern α}

/-- Each hit of a scan is one of the pattern at its place. -/
theorem exists_of_mem_scanFrom {before : Option Char} {offset skip : Nat} {text : List Char}
    {located : Located α} (member : located ∈ scanFrom pattern before offset skip text) :
    ∃ front ahead last hit, text = front ++ ahead ∧ located.start = offset + byteSize front ∧
      pattern last ahead = some hit ∧ hit.value = located.value := by
  induction text generalizing before offset skip with
  | nil =>
    cases skip <;> cases member
  | cons c text ih =>
    have later {skip : Nat}
        (member : located ∈ scanFrom pattern (some c) (offset + c.utf8Size) skip text) :
        ∃ front ahead last hit, c :: text = front ++ ahead ∧
          located.start = offset + byteSize front ∧ pattern last ahead = some hit ∧
          hit.value = located.value := by
      obtain ⟨front, ahead, last, hit, rfl, start, found, value⟩ := ih member
      exact ⟨c :: front, ahead, last, hit, rfl, by rw [start, byteSize, Nat.add_assoc], found, value⟩
    cases skip with
    | succ skip => exact later member
    | zero =>
      rw [scanFrom] at member
      split at member
      · next hit found =>
        rcases List.mem_cons.mp member with rfl | behind
        · exact ⟨[], c :: text, before, hit, rfl, rfl, found, rfl⟩
        · exact later behind
      · exact later member

end Text

namespace Attachment

/-- A filter starts with what leads to its name, and with the name behind that. -/
theorem filterPattern_eq_some {before : Option Char} {text : List Char} {hit : Text.Hit FilterName}
    (found : filterPattern before text = some hit) :
    ∃ behind, text = hit.value.lead ++ hit.value.name ++ behind := by
  unfold filterPattern at found
  obtain ⟨opened, opening, found⟩ := Option.bind_eq_some_iff.mp found
  obtain ⟨rest, blanks, found⟩ := Option.bind_eq_some_iff.mp found
  obtain ⟨⟨name, behind⟩, run, found⟩ := Option.bind_eq_some_iff.mp found
  obtain ⟨c, more, apart, -⟩ := Text.afterBlanks?_eq_some blanks
  have whole : text = (filterOpening ++ c :: more) ++ rest := by
    rw [Text.afterOpening?_eq_some opening, apart, List.append_assoc]
  obtain ⟨named, -⟩ := Text.takeRun?_eq_some run
  have lead : text.take (text.length - rest.length) = filterOpening ++ c :: more := by
    rw [whole, List.length_append, Nat.add_sub_cancel, List.take_left]
  dsimp only at found
  split at found
  · obtain rfl := Option.some.inj found
    refine ⟨behind, ?_⟩
    rw [lead, List.append_assoc, ← named]
    exact whole
  · cases found

/-- The names of filters stand in the text where they are found. -/
theorem standsAt_of_mem_filterNames {text name : List Char} {start : Nat}
    (member : (start, name) ∈ filterNames text) : StandsAt text name start := by
  unfold filterNames at member
  split at member
  · cases member
  · obtain ⟨hit, listed, found⟩ := List.mem_filterMap.mp member
    split at found
    · obtain ⟨front, ahead, last, filter, rfl, offset, matched, same⟩ :=
        Text.exists_of_mem_scanFrom listed
      obtain ⟨behind, rfl⟩ := filterPattern_eq_some matched
      obtain ⟨rfl, rfl⟩ := Prod.mk.injEq .. ▸ Option.some.inj found
      refine ⟨front ++ filter.value.lead, behind, ?_, ?_⟩
      · rw [same]
        simp only [List.append_assoc]
      · rw [offset, Text.byteSize_append, same, Nat.zero_add]
    · cases found

end Attachment

/-- A method's entry covers the name at the start of its call, and its helper's entry the first segments of
some chain. -/
structure ChainStep.Covers (tree : SyntaxTree) (step : ChainStep) : Prop where
  helper : ∃ path count, step.helper.range = Chain.rangeOf tree path count
  method : ∃ name args, tree.kind? step.segment = some (.objectFunctionPathNode name args) ∧
    step.range = ⟨(tree.range step.segment).start,
      (tree.range step.segment).start + byteSize name.toList⟩ ∧
    step.method.answersTo name = true

/-- A label covers the inside of its literal. A reference to a class covers a part of a string, from an
offset on behind the quote, that spells the name of the class. -/
inductive Attachment.Covers (tree : SyntaxTree) : Attachment → Prop
  | label {value : String} {literal : NodeId} (kind : tree.kind? literal = some (.literalString value)) :
    Covers tree ⟨.label value literal, .label, inside (tree.range literal)⟩
  | whole {value : String} {literal : NodeId} {cls : LoadedClass}
    (string : (tree.kind? literal).bind stringText? = some value)
    (spells : ClassName.collapse value.toList = cls.declaration.fqcn.toList) :
    Covers tree ⟨.classReference cls.declaration.fqcn cls literal, .fqcn,
      inside (tree.range literal)⟩
  | part {value : String} {literal : NodeId} {cls : LoadedClass} {offset : Nat} {name : List Char}
    (string : (tree.kind? literal).bind stringText? = some value)
    (stands : StandsAt value.toList name offset)
    (spells : ClassName.collapse name = cls.declaration.fqcn.toList) :
    Covers tree ⟨.classReference cls.declaration.fqcn cls literal, .fqcn,
      ⟨(inside (tree.range literal)).start + offset,
        (inside (tree.range literal)).start + offset + byteSize name⟩⟩

/-- What is inserted covers the text that it is about. -/
def TemplateFile.Insertion.Covers (tree : SyntaxTree) : TemplateFile.Insertion → Prop
  | .entry content tag range => Attachment.Covers tree ⟨content, tag, range⟩
  | .step made => made.Covers tree

section Steps

variable {tree : SyntaxTree} {helpers : BoundHelpers} {disk : Disk} {objectNode : NodeId}
  {library started : ClassLibrary} {helper : ChainStart}

theorem ChainPass.visit_covers {find : String → Option LoadedClass} {pass : ChainPass}
    (began : ∃ path count, helper.range = Chain.rangeOf tree path count) (segment : NodeId)
    (covers : ∀ step ∈ pass.steps, step.Covers tree) :
    ∀ step ∈ (visit tree find helper pass segment).steps, step.Covers tree := by
  unfold visit
  split
  · next cls name args _ kind =>
    split
    · next method found =>
      have answers : method.answersTo name = true := (List.find?_some found :)
      refine List.forall_mem_append.mpr ⟨covers, List.forall_mem_singleton.mpr ?_⟩
      exact ⟨began, name, args, kind, rfl, answers⟩
    · exact covers
  · exact covers

theorem ChainPass.reference_covers {find : String → Option LoadedClass}
    (began : ∃ path count, helper.range = Chain.rangeOf tree path count) (segments : List NodeId) :
    ∀ step ∈ reference tree find helper segments, step.Covers tree := by
  refine List.foldlRecOn (motive := fun pass : ChainPass => ∀ step ∈ pass.steps, step.Covers tree)
    segments _ (List.forall_mem_nil _) ?_
  intro pass covers segment _
  exact visit_covers began segment covers

theorem Chain.range_of_start
    (begun : (start tree helpers disk objectNode).run library = (.ok helper, started)) :
    ∃ path count, helper.range = rangeOf tree path count := by
  unfold start at begun
  split at begun
  · next path kind =>
    split at begun
    · cases begun
    · split at begun
      · cases begun
      · next consumed identifier fqcn bound =>
        rw [run_bind] at begun
        split at begun
        · cases begun
        · cases begun
          exact ⟨path, consumed, rfl⟩
  · cases begun

theorem ResolutionPlan.walk_covers :
    ∀ step ∈ walk helpers tree disk library objectNode, step.Covers tree := by
  unfold walk
  rcases begun : (Chain.start tree helpers disk objectNode).run library with ⟨abort | helper, started⟩
  · rw [Chain.follow, run_bind, begun]
    exact List.forall_mem_nil _
  · obtain ⟨made, final, path, consumed, fqcn, followed, -, -, -, reference, -⟩ :=
      Chain.follow_eq_reference begun
    rw [followed]
    change ∀ step ∈ made, step.Covers tree
    rw [reference]
    exact ChainPass.reference_covers (Chain.range_of_start begun) _

end Steps

namespace Attachment

variable {tree : SyntaxTree} {disk : Disk} {library : ClassLibrary} {attachment : Attachment}

/-- A reference that is found is to a class with the name that is written. -/
theorem exists_of_reference {written : List Char} {literal : NodeId} {range : ByteRange}
    (keyed : WellKeyed library)
    (found : ((reference disk written literal range).run library).1 = some attachment) :
    ∃ cls : LoadedClass, ClassName.collapse written = cls.declaration.fqcn.toList ∧
      attachment = ⟨.classReference cls.declaration.fqcn cls literal, .fqcn, range⟩ := by
  obtain ⟨cls, looked, rfl⟩ := Option.map_eq_some_iff.mp found
  let fqcn := String.ofList (ClassName.collapse written)
  have loaded : (library.lookup disk fqcn).2.loaded? fqcn = some cls :=
    (library.loaded?_lookup_self disk fqcn).trans looked
  have named : cls.declaration.fqcn = fqcn := by
    rw [(keyed.lookup disk fqcn).fqcn_of_loaded loaded]
    simp only [ClassDirectory.keyOf, fqcn, ClassName.collapse, ClassName.dropLeading,
      String.toList_ofList, List.dropWhile_idempotent]
  refine ⟨cls, ?_, ?_⟩
  · rw [named, String.toList_ofList]
  · rw [named]

theorem kind?_of_onlyStringArgument {segment literal : NodeId} {value : String}
    (found : onlyStringArgument? tree segment = some (literal, value)) :
    tree.kind? literal = some (.literalString value) := by
  unfold onlyStringArgument? at found
  split at found
  · split at found
    · next kind =>
      cases found
      exact kind
    · cases found
  · cases found

theorem covers_ofStep {step : ChainStep} (keyed : WellKeyed library)
    (found : ((ofStep tree disk step).run library).1 = some attachment) : attachment.Covers tree := by
  unfold ofStep at found
  split at found
  · next called literal value _ argument =>
    have kind := kind?_of_onlyStringArgument argument
    dsimp only at found
    split at found
    · cases found
      exact .label kind
    · split at found
      · obtain ⟨cls, spells, rfl⟩ := exists_of_reference keyed found
        exact .whole (by rw [kind]; rfl) spells
      · cases found
  · cases found

theorem kind?_of_metaClassLiteral {kind : NodeKind} {literal : NodeId} {value : String}
    (found : metaClassLiteral? tree kind = some (literal, value)) :
    tree.kind? literal = some (.stringValue value) := by
  unfold metaClassLiteral? at found
  split at found
  · obtain ⟨pathKind, -, found⟩ := Option.bind_eq_some_iff.mp found
    split at found
    · obtain ⟨segment, -, found⟩ := Option.bind_eq_some_iff.mp found
      obtain ⟨segmentKind, -, found⟩ := Option.bind_eq_some_iff.mp found
      split at found
      · split at found
        · cases found
        · obtain ⟨operationKind, -, found⟩ := Option.bind_eq_some_iff.mp found
          split at found
          · obtain ⟨valueKind, isString, found⟩ := Option.bind_eq_some_iff.mp found
            split at found
            · cases found
              exact isString
            · cases found
          · cases found
      · cases found
    · cases found
  · cases found

theorem covers_ofMetaClass {node : SyntaxNode} (keyed : WellKeyed library)
    (found : ((ofMetaClass tree disk node).run library).1 = some attachment) :
    attachment.Covers tree := by
  unfold ofMetaClass at found
  split at found
  · next literal value written =>
    obtain ⟨cls, spells, rfl⟩ := exists_of_reference keyed found
    exact .whole (by rw [kind?_of_metaClassLiteral written]; rfl) spells
  · cases found

theorem covers_ofFilters {literal : NodeId} {node : SyntaxNode} (keyed : WellKeyed library)
    (here : tree.nodes[literal]? = some node)
    (found : attachment ∈ ((ofFilters disk literal node).run library).1) : attachment.Covers tree := by
  let look (entry : Nat × List Char) :=
    let start := (inside node.range).start + entry.1
    reference disk entry.2 literal ⟨start, start + byteSize entry.2⟩
  have looks (entry : Nat × List Char) : InStep disk _ (look entry) (look entry) :=
    reference_inStep _ _ _
  let names := ((stringText? node.kind).map fun text => filterNames text.toList).getD []
  let later := ((names.mapM look).run library).2
  have alone : ((names.mapM look).run library).1 = names.map fun entry => ((look entry).run later).1 :=
    run_mapM_of_inStep looks names .refl
  have behind : WellKeyed later := keyed.of_grows ((InStep.mapM looks names).grows library)
  change attachment ∈ ((names.mapM look).run library).1.filterMap id at found
  rw [alone, List.filterMap_map] at found
  obtain ⟨⟨offset, name⟩, listed, answer⟩ := List.mem_filterMap.mp found
  obtain ⟨cls, spells, rfl⟩ := exists_of_reference behind answer
  cases string : stringText? node.kind with
  | none =>
    simp only [names, string] at listed
    cases listed
  | some value =>
    have range : tree.range literal = node.range := by rw [SyntaxTree.range, here]; rfl
    have same : (tree.kind? literal).bind stringText? = some value := by
      rw [SyntaxTree.kind?, here, Option.map_some, Option.bind_some, string]
    simp only [names, string] at listed
    dsimp only
    rw [← range]
    exact .part same (standsAt_of_mem_filterNames listed) spells

end Attachment

/-- Whatever is planned in a library in which classes are loaded under their own names covers what it is
made from. -/
theorem covers_of_planned {helpers : BoundHelpers} {tree : SyntaxTree} {disk : Disk}
    {library : ClassLibrary} (keyed : WellKeyed library) :
    ∀ insertion ∈ resolutionPlan helpers tree disk library, insertion.Covers tree := by
  have attached {found : List Attachment} (covers : ∀ attachment ∈ found, attachment.Covers tree) :
      ∀ insertion ∈ found.map TemplateFile.Insertion.ofAttachment, insertion.Covers tree :=
    List.forall_mem_map.mpr covers
  refine List.forall_mem_append.mpr ⟨?_, List.forall_mem_append.mpr ⟨?_, ?_⟩⟩
  · unfold ResolutionPlan.ofChains
    split
    · exact List.forall_mem_nil _
    · refine List.forall_mem_flatMap.mpr fun objectNode _ => List.forall_mem_flatMap.mpr ?_
      intro step walked
      refine List.forall_mem_cons.mpr ⟨ResolutionPlan.walk_covers step walked, attached ?_⟩
      exact fun attachment found => Attachment.covers_ofStep keyed (Option.mem_toList.mp found)
  · refine List.forall_mem_flatMap.mpr fun node _ => attached ?_
    exact fun attachment found => Attachment.covers_ofMetaClass keyed (Option.mem_toList.mp found)
  · refine List.forall_mem_flatMap.mpr fun node listed => attached ?_
    have here : tree.nodes[node.2]? = some node.1 := by
      rw [← Array.getElem?_toList]
      exact List.mem_zipIdx_iff_getElem?.mp listed
    exact fun attachment found => Attachment.covers_ofFilters keyed here found

end FusionAtlas
