import FusionAtlas.Proofs.AlikeResolution
import FusionAtlas.Proofs.EntryStore

/-!
Resolution puts in what is planned. The plan is made of walks and lookups that each run alone on the tree,
in any library from the one behind the resolution on, so nothing that is put in on the way is seen by what
follows. Main statements: the rules of `Resolving.Inserts`, and `TemplateFile.resolve_appends`.
-/

set_option autoImplicit false
set_option relaxedAutoImplicit false

namespace FusionAtlas

open ClassLibrary (Alike Grows)
open LookupProgram

/-- The chains of a tree in the order of their numbers. -/
def SyntaxTree.chains (tree : SyntaxTree) : List NodeId :=
  (tree.nodes.toList.zipIdx.filter fun node => node.1.kind.tag = .objectNode).map (·.2)

namespace Attachment

/-- A label or a reference to a class, with the tag of such an entry. -/
def Annotates (attachment : Attachment) : Prop :=
  (∃ value literal, attachment.content = .label value literal ∧ attachment.tag = .label) ∨
    ∃ identifier cls literal,
      attachment.content = .classReference identifier cls literal ∧ attachment.tag = .fqcn

theorem annotates_reference {disk : Disk} {written : List Char} {literal : NodeId} {range : ByteRange}
    {library : ClassLibrary} {attachment : Attachment}
    (found : ((reference disk written literal range).run library).1 = some attachment) :
    attachment.Annotates := by
  obtain ⟨cls, -, rfl⟩ := Option.map_eq_some_iff.mp found
  exact Or.inr ⟨_, cls, literal, rfl, rfl⟩

theorem annotates_ofStep {tree : SyntaxTree} {disk : Disk} {step : ChainStep} {library : ClassLibrary}
    {attachment : Attachment}
    (found : ((ofStep tree disk step).run library).1 = some attachment) : attachment.Annotates := by
  unfold ofStep at found
  split at found
  · simp only at found
    split at found
    · cases found
      exact Or.inl ⟨_, _, rfl, rfl⟩
    · split at found
      · exact annotates_reference found
      · cases found
  · cases found

theorem annotates_ofMetaClass {tree : SyntaxTree} {disk : Disk} {node : SyntaxNode}
    {library : ClassLibrary} {attachment : Attachment}
    (found : ((ofMetaClass tree disk node).run library).1 = some attachment) :
    attachment.Annotates := by
  unfold ofMetaClass at found
  split at found
  · exact annotates_reference found
  · cases found

end Attachment

namespace LookupProgram

/-- Computations that ran one after the other come to what each comes to alone, at any time behind them. -/
theorem run_mapM_of_inStep {α β γ : Type} {disk : Disk} {erase : β → γ} {f : α → StateM ClassLibrary β}
    (step : ∀ x, InStep disk erase (f x) (f x)) (items : List α) {library later : ClassLibrary}
    (grown : Grows disk ((items.mapM f).run library).2 later) :
    ((items.mapM f).run library).1 = items.map fun x => ((f x).run later).1 := by
  induction items generalizing library with
  | nil => rfl
  | cons x items ih =>
    rw [List.mapM_cons, run_bind, run_bind] at grown ⊢
    have others := ih grown
    have first := (step x).again library later (((InStep.mapM step items).grows _).trans grown)
    rw [List.map_cons, first, ← others]
    rfl

end LookupProgram

theorem Attachment.annotates_ofFilters {disk : Disk} {literal : NodeId} {node : SyntaxNode}
    {library : ClassLibrary} {attachment : Attachment}
    (found : attachment ∈ ((ofFilters disk literal node).run library).1) : attachment.Annotates := by
  let look (entry : Nat × List Char) :=
    let start := (inside node.range).start + entry.1
    reference disk entry.2 literal ⟨start, start + Text.byteSize entry.2⟩
  let names := ((stringText? node.kind).map fun text => filterNames text.toList).getD []
  have alone : ((names.mapM look).run library).1 = names.map fun entry => _ :=
    run_mapM_of_inStep (fun entry => reference_inStep _ _ _) names .refl
  change attachment ∈ ((names.mapM look).run library).1.filterMap id at found
  rw [alone, List.filterMap_map] at found
  obtain ⟨entry, -, answer⟩ := List.mem_filterMap.mp found
  exact annotates_reference answer

namespace TemplateFile

namespace Insertion

/-- What attaching inserts. -/
def ofAttachment (attachment : Attachment) : Insertion :=
  .entry attachment.content attachment.tag attachment.range

/-- The same without the identities of the classes. -/
def anonymous : Insertion → Insertion
  | entry content tag range => entry content.anonymous tag range
  | step made => step made.anonymous

/-- The entries that are made of it, numbered from `n` on. -/
def entries (lines : LineIndex) (n : EntryId) : Insertion → List Entry
  | entry content tag range => [.placed lines n content tag range]
  | step made =>
    [.placed lines n
        (.helper made.helper.identifier made.helper.cls made.helper.objectNode (n + 1)) .helper
        made.helper.range,
      .placed lines (n + 1) (.helperMethod made.method.name made.cls made.method made.segment n)
        .helperMethod made.range]

/-- The entries that are made of all, one after the other. -/
def entriesFrom (lines : LineIndex) : EntryId → List Insertion → List Entry
  | _, [] => []
  | n, insertion :: more =>
    let first := insertion.entries lines n
    first ++ entriesFrom lines (n + first.length) more

end Insertion

open Insertion (entriesFrom ofAttachment)

theorem toList_entries_insert (file : TemplateFile) (insertion : Insertion) :
    (file.insert insertion).2.entries.toList =
      file.entries.toList ++ insertion.entries file.lines file.size := by
  cases insertion with
  | entry content tag range => exact toList_entries_add file content tag range
  | step made =>
    change ((file.add _ _ _).add _ _ _).entries.toList = _
    rw [toList_entries_add, toList_entries_add, size_add, List.append_assoc]
    rfl

theorem toList_entries_insertAll (file : TemplateFile) (insertions : List Insertion) :
    (file.insertAll insertions).2.entries.toList =
      file.entries.toList ++ entriesFrom file.lines file.size insertions := by
  induction insertions generalizing file with
  | nil => exact (List.append_nil _).symm
  | cons insertion more ih =>
    have here := file.toList_entries_insert insertion
    have size : (file.insert insertion).2.size =
        file.size + (insertion.entries file.lines file.size).length := by
      rw [TemplateFile.size, ← Array.length_toList, here, List.length_append, Array.length_toList]
      rfl
    change ((file.insert insertion).2.insertAll more).2.entries.toList = _
    rw [ih, here, (Extends.insert file insertion).lines, size, List.append_assoc]
    rfl

theorem insertAll_append (file : TemplateFile) (insertions more : List Insertion) :
    (file.insertAll (insertions ++ more)).2 = ((file.insertAll insertions).2.insertAll more).2 := by
  induction insertions generalizing file with
  | nil => rfl
  | cons insertion insertions ih => exact ih (file.insert insertion).2

end TemplateFile

open TemplateFile (Insertion)

namespace ResolutionPlan

variable (helpers : BoundHelpers) (tree : SyntaxTree) (disk : Disk) (library : ClassLibrary)

/-- The steps of a chain that was followed, none if it is not. -/
def steps : Except ChainAbort (ChainStart × List ChainStep) → List ChainStep
  | .ok (_, steps) => steps
  | .error _ => []

/-- The steps of a chain that is walked in a library. -/
def walk (objectNode : NodeId) : List ChainStep :=
  steps ((Chain.follow tree helpers disk objectNode).run library).1

/-- A step, and behind it what its argument means in a library, if anything. -/
def ofStep (step : ChainStep) : List Insertion :=
  .step step :: ((Attachment.ofStep tree disk step).run library).1.toList.map .ofAttachment

/-- The steps of all chains, one chain after the other; no chain is walked if no helpers are bound. -/
def ofChains : List Insertion :=
  if helpers.isEmpty then []
  else tree.chains.flatMap fun objectNode =>
    (walk helpers tree disk library objectNode).flatMap (ofStep tree disk library)

/-- The references in meta properties, node after node. -/
def ofMetaClasses : List Insertion :=
  tree.nodes.toList.flatMap fun node =>
    ((Attachment.ofMetaClass tree disk node).run library).1.toList.map .ofAttachment

/-- The references in filters, node after node. -/
def ofFilters : List Insertion :=
  tree.nodes.toList.zipIdx.flatMap fun node =>
    ((Attachment.ofFilters disk node.2 node.1).run library).1.map .ofAttachment

end ResolutionPlan

/-- What is put into a file with the tree, each part found alone in one library. -/
def resolutionPlan (helpers : BoundHelpers) (tree : SyntaxTree) (disk : Disk)
    (library : ClassLibrary) : List Insertion :=
  ResolutionPlan.ofChains helpers tree disk library ++
    (ResolutionPlan.ofMetaClasses tree disk library ++ ResolutionPlan.ofFilters tree disk library)

namespace Resolving

/-- Put things in, and count the steps and the others. -/
def insertAll (r : Resolving) (insertions : List Insertion) : Resolving :=
  ⟨(r.file.insertAll insertions).2, r.counts.steps + insertions.countP (·.step?.isSome),
    r.counts.attachments + insertions.countP (·.step?.isNone)⟩

theorem insertAll_append (r : Resolving) (insertions more : List Insertion) :
    r.insertAll (insertions ++ more) = (r.insertAll insertions).insertAll more := by
  simp only [insertAll, TemplateFile.insertAll_append, List.countP_append, Nat.add_assoc]

theorem tree_insertAll (r : Resolving) (insertions : List Insertion) :
    (r.insertAll insertions).file.tree = r.file.tree :=
  (TemplateFile.Extends.insertAll r.file insertions).tree

theorem attachAll_eq (r : Resolving) (attachments : List Attachment) :
    r.attachAll attachments = r.insertAll (attachments.map .ofAttachment) := by
  induction attachments generalizing r with
  | nil => rfl
  | cons attachment attachments ih =>
    have first : r.attachAll (attachment :: attachments) =
        (r.insertAll [.ofAttachment attachment]).attachAll attachments := by
      have count : r.counts.attachments + (attachments.length + 1) =
          r.counts.attachments + 1 + attachments.length := by omega
      simp only [attachAll, List.foldl_cons, List.length_cons, count]
      rfl
    rw [first, ih, ← insertAll_append]
    rfl

variable {disk : Disk} {tree : SyntaxTree}

/-- Whatever file with the tree it is given, the computation only looks classes up, and puts in what is
planned in each library from the one behind it on. -/
def Inserts (disk : Disk) (tree : SyntaxTree) (m : Resolving → StateM ClassLibrary Resolving)
    (plan : ClassLibrary → List Insertion) : Prop :=
  ∀ r library, r.file.tree = tree → Grows disk library ((m r).run library).2 ∧ ∃ insertions,
    ((m r).run library).1 = r.insertAll insertions ∧
      ∀ later, Grows disk ((m r).run library).2 later → plan later = insertions

namespace Inserts

variable {m n : Resolving → StateM ClassLibrary Resolving} {plan more : ClassLibrary → List Insertion}

theorem congr (inserts : Inserts disk tree n plan) (same : ∀ r, r.file.tree = tree → m r = n r) :
    Inserts disk tree m plan := by
  intro r library parsed
  rw [same r parsed]
  exact inserts r library parsed

theorem pure {f : Resolving → Resolving} {insertions : List Insertion}
    (put : ∀ r, f r = r.insertAll insertions) :
    Inserts disk tree (fun r => Pure.pure (f r)) fun _ => insertions :=
  fun r _ _ => ⟨.refl, insertions, put r, fun _ _ => rfl⟩

theorem bind (first : Inserts disk tree m plan) (second : Inserts disk tree n more) :
    Inserts disk tree (fun r => m r >>= n) fun library => plan library ++ more library := by
  intro r library same
  obtain ⟨grown, insertions, put, planned⟩ := first r library same
  obtain ⟨further, others, behind, planned'⟩ := second ((m r).run library).1 ((m r).run library).2
    (by rw [put, tree_insertAll, same])
  refine ⟨grown.trans further, insertions ++ others, ?_, fun later grown => ?_⟩
  · rw [run_bind, behind, put, insertAll_append]
  · exact congrArg₂ (· ++ ·) (planned later (further.trans grown)) (planned' later grown)

/-- What was found by lookups alone decides what is put in next. -/
theorem lookup {α γ : Type} {erase : α → γ} {found : StateM ClassLibrary α}
    {next : α → Resolving → StateM ClassLibrary Resolving} {plan : α → ClassLibrary → List Insertion}
    (known : InStep disk erase found found) (inserts : ∀ x, Inserts disk tree (next x) (plan x)) :
    Inserts disk tree (fun r => found >>= fun x => next x r) fun library =>
      plan (found.run library).1 library := by
  intro r library same
  obtain ⟨further, insertions, put, planned⟩ :=
    inserts (found.run library).1 r (found.run library).2 same
  refine ⟨(known.grows library).trans further, insertions, put, fun later grown => ?_⟩
  change plan (found.run later).1 later = insertions
  rw [known.again library later (further.trans grown), planned later grown]

theorem foldlM {α : Type} {f : Resolving → α → StateM ClassLibrary Resolving}
    {plan : α → ClassLibrary → List Insertion}
    (step : ∀ x, Inserts disk tree (fun r => f r x) (plan x)) (items : List α) :
    Inserts disk tree (fun r => items.foldlM f r) fun library =>
      items.flatMap fun x => plan x library := by
  induction items with
  | nil => exact pure fun _ => rfl
  | cons x items ih =>
    simp only [List.foldlM_cons, List.flatMap_cons]
    exact (step x).bind ih

end Inserts

theorem attach_inserts (step : ChainStep) :
    Inserts disk tree (fun r => attach disk r step) fun library =>
      ResolutionPlan.ofStep tree disk library step := by
  have put (found : Option Attachment) (r : Resolving) :
      (⟨(r.file.attachStep step).2, { r.counts with steps := r.counts.steps + 1 }⟩ :
        Resolving).attachAll found.toList =
      r.insertAll (.step step :: found.toList.map .ofAttachment) := by
    rw [attachAll_eq]
    exact (insertAll_append r [.step step] _).symm
  have known : InStep disk (Option.map Attachment.anonymous) (Attachment.ofStep tree disk step)
      (Attachment.ofStep tree disk step) := Attachment.ofStep_inStep rfl
  refine (Inserts.lookup known fun found => .pure (put found)).congr fun r same => ?_
  subst same
  rfl

theorem chain_inserts (helpers : BoundHelpers) (objectNode : NodeId) :
    Inserts disk tree (fun r => chain helpers disk r objectNode) fun library =>
      (ResolutionPlan.walk helpers tree disk library objectNode).flatMap
        (ResolutionPlan.ofStep tree disk library) := by
  have behind (followed : Except ChainAbort (ChainStart × List ChainStep)) :
      Inserts disk tree (fun r => attachSteps disk r followed) fun library =>
        (ResolutionPlan.steps followed).flatMap (ResolutionPlan.ofStep tree disk library) := by
    cases followed with
    | error abort => exact .pure fun _ => rfl
    | ok found => exact .foldlM attach_inserts found.2
  have followed := Chain.follow_inStep tree helpers disk objectNode
  refine (Inserts.lookup followed behind).congr fun r same => ?_
  subst same
  rfl

theorem attachMetaClasses_inserts :
    Inserts disk tree (fun r => do return r.attachAll (← Attachment.ofMetaClasses tree disk))
      (ResolutionPlan.ofMetaClasses tree disk) := by
  intro r library _
  refine ⟨Attachment.ofMetaClasses_inStep.grows library, _, attachAll_eq r _, fun later grown => ?_⟩
  have alone : ((tree.nodes.toList.mapM (Attachment.ofMetaClass tree disk)).run library).1 = _ :=
    run_mapM_of_inStep Attachment.ofMetaClass_inStep tree.nodes.toList grown
  change _ = (((tree.nodes.toList.mapM (Attachment.ofMetaClass tree disk)).run library).1.filterMap
    id).map Insertion.ofAttachment
  rw [alone, List.filterMap_map, List.filterMap_eq_flatMap_toList, List.map_flatMap]
  rfl

theorem attachFilters_inserts :
    Inserts disk tree (fun r => do return r.attachAll (← Attachment.ofInstanceofFilters tree disk))
      (ResolutionPlan.ofFilters tree disk) := by
  intro r library _
  refine ⟨Attachment.ofInstanceofFilters_inStep.grows library, _, attachAll_eq r _,
    fun later grown => ?_⟩
  let each (entry : SyntaxNode × NodeId) := Attachment.ofFilters disk entry.2 entry.1
  have alone : ((tree.nodes.toList.zipIdx.mapM each).run library).1 = _ :=
    run_mapM_of_inStep (fun entry => Attachment.ofFilters_inStep entry.2 entry.1)
      tree.nodes.toList.zipIdx grown
  change _ = ((tree.nodes.toList.zipIdx.mapM each).run library).1.flatten.map Insertion.ofAttachment
  rw [alone, List.map_flatten, List.map_map]
  rfl

theorem resolve_inserts (helpers : BoundHelpers) (file : TemplateFile)
    (chains : file.chains = file.tree.chains) (library : ClassLibrary) :
    let resolved := (file.resolve helpers disk).run library
    ∃ insertions, resolved.1 = (⟨file, 0, 0⟩ : Resolving).insertAll insertions ∧
      ∀ later, Grows disk resolved.2 later →
        resolutionPlan helpers file.tree disk later = insertions := by
  let walkAll (r : Resolving) : StateM ClassLibrary Resolving :=
    if helpers.isEmpty then pure r else file.chains.foldlM (chain helpers disk) r
  have walks : Inserts disk file.tree walkAll (ResolutionPlan.ofChains helpers file.tree disk) := by
    unfold walkAll ResolutionPlan.ofChains
    rw [chains]
    split
    · exact .pure fun _ => rfl
    · exact .foldlM (chain_inserts helpers) _
  have whole := walks.bind (attachMetaClasses_inserts.bind attachFilters_inserts)
  have unfolded : file.resolve helpers disk = (do
      let r ← walkAll ⟨file, 0, 0⟩
      let r ← (do return r.attachAll (← Attachment.ofMetaClasses file.tree disk))
      return r.attachAll (← Attachment.ofInstanceofFilters file.tree disk)) := by
    unfold TemplateFile.resolve walkAll
    split <;> rfl
  rw [unfolded]
  exact (whole ⟨file, 0, 0⟩ library rfl).2

end Resolving

namespace ResolutionPlan

open TemplateFile.Insertion (anonymous)

variable {tree : SyntaxTree} {disk : Disk} {a b : ClassLibrary}

/-- Insertions for the same items look the same if those for each item do. -/
private theorem flatMap_alike {α β : Type} {shape : α → β} {f g : α → List Insertion}
    (each : ∀ x y, shape x = shape y → (f x).map anonymous = (g y).map anonymous) {items : List α} :
    ∀ {others : List α}, items.map shape = others.map shape →
      (items.flatMap f).map anonymous = (others.flatMap g).map anonymous := by
  induction items with
  | nil =>
    intro others same
    rw [List.map_eq_nil_iff.mp same.symm]
    rfl
  | cons item items ih =>
    intro others same
    cases others with
    | nil => cases same
    | cons other others =>
      obtain ⟨first, rest⟩ := List.cons.inj same
      rw [List.flatMap_cons, List.flatMap_cons, List.map_append, List.map_append, each _ _ first, ih rest]

private theorem attachments_alike {first second : List Attachment}
    (same : first.map Attachment.anonymous = second.map Attachment.anonymous) :
    (first.map Insertion.ofAttachment).map anonymous =
      (second.map Insertion.ofAttachment).map anonymous := by
  have erased (found : List Attachment) : (found.map Insertion.ofAttachment).map anonymous =
      (found.map Attachment.anonymous).map .ofAttachment := by
    rw [List.map_map, List.map_map]
    rfl
  rw [erased, erased, same]

theorem ofStep_alike (alike : Alike disk a b) {step other : ChainStep}
    (same : step.anonymous = other.anonymous) :
    (ofStep tree disk a step).map anonymous = (ofStep tree disk b other).map anonymous := by
  have found : InStep disk _ (Attachment.ofStep tree disk step) (Attachment.ofStep tree disk other) :=
    Attachment.ofStep_inStep same
  obtain ⟨-, -, -, found⟩ := found.alike a b alike
  rw [ofStep, ofStep, List.map_cons, List.map_cons]
  congr 1
  · exact congrArg Insertion.step same
  · refine attachments_alike ?_
    rw [← Option.toList_map, ← Option.toList_map, found]

theorem ofChains_alike (helpers : BoundHelpers) (alike : Alike disk a b) :
    (ofChains helpers tree disk a).map anonymous = (ofChains helpers tree disk b).map anonymous := by
  unfold ofChains
  split
  · rfl
  · rw [List.map_flatMap, List.map_flatMap]
    refine List.flatMap_congr fun objectNode _ => ?_
    obtain ⟨-, -, -, found⟩ := (Chain.follow_inStep tree helpers disk objectNode).alike a b alike
    refine flatMap_alike (fun _ _ same => ofStep_alike alike same) ?_
    have erased (followed : Except ChainAbort (ChainStart × List ChainStep)) :
        (steps followed).map ChainStep.anonymous = steps (Chain.anonymous followed) := by
      cases followed <;> rfl
    rw [walk, walk, erased, erased, found]

theorem ofMetaClasses_alike (alike : Alike disk a b) :
    (ofMetaClasses tree disk a).map anonymous = (ofMetaClasses tree disk b).map anonymous := by
  rw [ofMetaClasses, ofMetaClasses, List.map_flatMap, List.map_flatMap]
  refine List.flatMap_congr fun node _ => ?_
  have found : InStep disk _ (Attachment.ofMetaClass tree disk node)
    (Attachment.ofMetaClass tree disk node) := Attachment.ofMetaClass_inStep node
  obtain ⟨-, -, -, found⟩ := found.alike a b alike
  refine attachments_alike ?_
  rw [← Option.toList_map, ← Option.toList_map, found]

theorem ofFilters_alike (alike : Alike disk a b) :
    (ofFilters tree disk a).map anonymous = (ofFilters tree disk b).map anonymous := by
  rw [ofFilters, ofFilters, List.map_flatMap, List.map_flatMap]
  refine List.flatMap_congr fun node _ => ?_
  obtain ⟨-, -, -, found⟩ := (Attachment.ofFilters_inStep node.2 node.1).alike a b alike
  exact attachments_alike found

end ResolutionPlan

/-- In libraries that answer alike the same is planned, the identities of the classes apart. -/
theorem resolutionPlan_alike (helpers : BoundHelpers) (tree : SyntaxTree) {disk : Disk}
    {a b : ClassLibrary} (alike : Alike disk a b) :
    (resolutionPlan helpers tree disk a).map Insertion.anonymous =
      (resolutionPlan helpers tree disk b).map Insertion.anonymous := by
  simp only [resolutionPlan, List.map_append, ResolutionPlan.ofChains_alike helpers alike,
    ResolutionPlan.ofMetaClasses_alike alike, ResolutionPlan.ofFilters_alike alike]

/-- What is planned beside the steps are labels and references to classes. -/
theorem annotates_of_planned {helpers : BoundHelpers} {tree : SyntaxTree} {disk : Disk}
    {library : ClassLibrary} {content : EntryContent} {tag : NodeTag} {range : ByteRange}
    (planned : Insertion.entry content tag range ∈ resolutionPlan helpers tree disk library) :
    Attachment.Annotates ⟨content, tag, range⟩ := by
  have attached {found : List Attachment}
      (member : Insertion.entry content tag range ∈ found.map .ofAttachment) :
      ⟨content, tag, range⟩ ∈ found := by
    obtain ⟨attachment, among, same⟩ := List.mem_map.mp member
    cases same
    exact among
  rcases List.mem_append.mp planned with chains | literals
  · unfold ResolutionPlan.ofChains at chains
    split at chains
    · cases chains
    · obtain ⟨objectNode, -, walked⟩ := List.mem_flatMap.mp chains
      obtain ⟨step, -, put⟩ := List.mem_flatMap.mp walked
      rcases List.mem_cons.mp put with same | member
      · cases same
      · exact Attachment.annotates_ofStep (Option.mem_toList.mp (attached member))
  · rcases List.mem_append.mp literals with metaClasses | filters
    · obtain ⟨node, -, member⟩ := List.mem_flatMap.mp metaClasses
      exact Attachment.annotates_ofMetaClass (Option.mem_toList.mp (attached member))
    · obtain ⟨node, -, member⟩ := List.mem_flatMap.mp filters
      exact Attachment.annotates_ofFilters (attached member)

namespace TemplateFile

/-- The nodes of a file have none of the tags that resolution gives. -/
theorem count_tag_nodes {nodes : List (SyntaxNode × NodeId)} {lines : LineIndex} {tag : NodeTag}
    (synthetic : tag.isSynthetic = true) :
    ((nodes.map (entryOfNode lines)).map (·.tag)).count tag = 0 := by
  rw [List.count_eq_zero, List.map_map]
  intro member
  obtain ⟨node, -, rfl⟩ := List.mem_map.mp member
  rw [Function.comp_apply, entryOfNode, Entry.placed, NodeKind.isSynthetic_tag] at synthetic
  cases synthetic

open Insertion (entriesFrom)

/-- The tags of the entries that are made of an insertion. -/
def Insertion.tags : Insertion → List NodeTag
  | entry _ tag _ => [tag]
  | step _ => [.helper, .helperMethod]

theorem map_tag_entriesFrom (lines : LineIndex) (n : EntryId) (insertions : List Insertion) :
    (entriesFrom lines n insertions).map (·.tag) = insertions.flatMap Insertion.tags := by
  induction insertions generalizing n with
  | nil => rfl
  | cons insertion more ih =>
    rw [entriesFrom, List.map_append, ih, List.flatMap_cons]
    cases insertion <;> rfl

/-- How often steps, labels and references give each tag. -/
theorem count_tags {insertions : List Insertion}
    (annotates : ∀ content tag range, .entry content tag range ∈ insertions →
      Attachment.Annotates ⟨content, tag, range⟩) :
    let tags := insertions.flatMap Insertion.tags
    let steps := insertions.countP (·.step?.isSome)
    let others := insertions.countP (·.step?.isNone)
    tags.count .helper = steps ∧ tags.count .helperMethod = steps ∧
      tags.count .label + tags.count .fqcn = others ∧ tags.length = 2 * steps + others := by
  induction insertions with
  | nil => exact ⟨rfl, rfl, rfl, rfl⟩
  | cons insertion more ih =>
    obtain ⟨helpers, methods, others, length⟩ := ih fun content tag range member =>
      annotates content tag range (List.mem_cons_of_mem _ member)
    simp only [List.flatMap_cons, List.count_append, List.length_append, helpers, methods, length,
      List.countP_cons, ← others]
    cases insertion with
    | entry content tag range =>
      rcases annotates content tag range (List.mem_cons_self ..) with
        ⟨_, _, -, tagged⟩ | ⟨_, _, _, -, tagged⟩ <;> cases tagged <;>
        simp [Insertion.tags, Insertion.step?] <;> omega
    | step made =>
      simp [Insertion.tags, Insertion.step?]
      omega

/-- The chains of a file that was just read are those of its tree. -/
theorem chains_ofTree (uri : FileUri) (text : String) (tree : SyntaxTree)
    (errors : Array Template.SyntaxError) : (ofTree uri text tree errors).chains = tree.chains := by
  obtain ⟨consistent, -, -, -, -, -, entries⟩ := ofTree_entries uri text tree errors
  rw [chains, consistent.withTag_eq, entries, List.filter_map, List.filterMap_map,
    SyntaxTree.chains, ← List.filterMap_eq_map]
  rfl

/-- Resolving a file that was just read puts in what is planned in the library behind it, which is planned
in every later one. -/
theorem resolve_ofTree (uri : FileUri) (text : String) (tree : SyntaxTree)
    (errors : Array Template.SyntaxError) (helpers : BoundHelpers) (disk : Disk)
    (library : ClassLibrary) :
    let file := ofTree uri text tree errors
    let resolved := (file.resolve helpers disk).run library
    let planned := resolutionPlan helpers tree disk resolved.2
    resolved.1 = (⟨file, 0, 0⟩ : Resolving).insertAll planned ∧
      ∀ later, Grows disk resolved.2 later → resolutionPlan helpers tree disk later = planned := by
  intro file resolved planned
  obtain ⟨-, -, -, parsed, -⟩ := ofTree_entries uri text tree errors
  have read : file.tree = tree := parsed
  have chains : file.chains = file.tree.chains := by
    rw [read]
    exact chains_ofTree uri text tree errors
  obtain ⟨insertions, put, known⟩ := Resolving.resolve_inserts helpers file chains library
  rw [read] at known
  obtain rfl : planned = insertions := known resolved.2 .refl
  exact ⟨put, known⟩

/-- A file has as many entries with a tag that resolution gives as were put in. -/
theorem length_withTag_insertAll (uri : FileUri) (text : String) (tree : SyntaxTree)
    (errors : Array Template.SyntaxError) (insertions : List Insertion) {tag : NodeTag}
    (synthetic : tag.isSynthetic = true) :
    (((ofTree uri text tree errors).insertAll insertions).2.withTag tag).length =
      (insertions.flatMap Insertion.tags).count tag := by
  obtain ⟨consistent, -, -, -, -, -, nodes⟩ := ofTree_entries uri text tree errors
  have tagged (entries : List Entry) : (entries.filter fun entry => entry.tag = tag).length =
      (entries.map (·.tag)).count tag := by
    rw [← List.countP_eq_length_filter, List.count, List.countP_map]
    exact List.countP_congr fun entry _ => by simp
  rw [(consistent.insertAll insertions).withTag_eq, tagged, toList_entries_insertAll, List.map_append,
    List.count_append, map_tag_entriesFrom, nodes, count_tag_nodes synthetic, Nat.zero_add]

/-- A file that was just read keeps all it holds when it is resolved, and gets exactly the entries that are
planned behind it: for each chain, in order and unless no helpers are bound, the two entries of each step of
its walk, and behind each pair at most one label or reference; then the references in meta properties, then
those in filters. The walks and lookups of the plan run alone, each in one library, be it the one behind the
resolution, any later one, or, the identities of the classes apart, the one before. The counts are those of
the entries with the tags. -/
theorem resolve_appends (uri : FileUri) (text : String) (tree : SyntaxTree)
    (errors : Array Template.SyntaxError) (helpers : BoundHelpers) (disk : Disk)
    (library : ClassLibrary) :
    let file := ofTree uri text tree errors
    let resolved := (file.resolve helpers disk).run library
    let after := resolved.1.file
    let counts := resolved.1.counts
    let planned := resolutionPlan helpers tree disk resolved.2
    file.Extends after ∧
    after.entries.toList = file.entries.toList ++ entriesFrom file.lines file.size planned ∧
    (∀ content tag range, .entry content tag range ∈ planned →
      Attachment.Annotates ⟨content, tag, range⟩) ∧
    (∀ later, Grows disk resolved.2 later → resolutionPlan helpers tree disk later = planned) ∧
    (∀ other, Alike disk library other →
      (resolutionPlan helpers tree disk other).map Insertion.anonymous =
        planned.map Insertion.anonymous) ∧
    counts.steps = (after.withTag .helper).length ∧
    counts.steps = (after.withTag .helperMethod).length ∧
    counts.attachments = (after.withTag .label).length + (after.withTag .fqcn).length ∧
    after.size = file.size + 2 * counts.steps + counts.attachments := by
  intro file resolved after counts planned
  obtain ⟨put, known⟩ := resolve_ofTree uri text tree errors helpers disk library
  have inserted : after = (file.insertAll planned).2 := congrArg Resolving.file put
  have entries : after.entries.toList = file.entries.toList ++ entriesFrom file.lines file.size planned := by
    rw [inserted, toList_entries_insertAll]
  have annotates : ∀ content tag range, .entry content tag range ∈ planned →
      Attachment.Annotates ⟨content, tag, range⟩ := fun _ _ _ member => annotates_of_planned member
  obtain ⟨helperCount, methodCount, others, length⟩ := count_tags annotates
  have grown : Grows disk library resolved.2 := (resolve_inStep helpers disk file).grows library
  have counted (tag : NodeTag) (synthetic : tag.isSynthetic = true) :
      (after.withTag tag).length = (planned.flatMap Insertion.tags).count tag := by
    rw [inserted]
    exact length_withTag_insertAll uri text tree errors planned synthetic
  have steps : counts.steps = planned.countP (·.step?.isSome) := by
    rw [show counts = _ from congrArg Resolving.counts put]
    exact Nat.zero_add _
  have attachments : counts.attachments = planned.countP (·.step?.isNone) := by
    rw [show counts = _ from congrArg Resolving.counts put]
    exact Nat.zero_add _
  refine ⟨?_, entries, annotates, known, fun other alike => ?_, ?_, ?_, ?_, ?_⟩
  · rw [inserted]
    exact .insertAll file planned
  · exact resolutionPlan_alike helpers tree (alike.symm.trans (.of_grows grown))
  · rw [steps, counted _ rfl, helperCount]
  · rw [steps, counted _ rfl, methodCount]
  · rw [attachments, counted _ rfl, counted _ rfl, others]
  · have size : after.size = file.size + (entriesFrom file.lines file.size planned).length := by
      rw [TemplateFile.size, ← Array.length_toList, entries, List.length_append, Array.length_toList]
      rfl
    rw [size, ← List.length_map (·.tag), map_tag_entriesFrom, length, steps, attachments, Nat.add_assoc]

private def plantDisk : Disk :=
  ⟨.directory [(Text.Utf8.encode "src".toList, .directory
    [(Text.Utf8.encode "Pump.php".toList, .file (Text.Utf8.encode
        "<?php\nnamespace Acme;\nclass Pump { public function run() {} }\n".toList)),
      (Text.Utf8.encode "Names.php".toList, .file (Text.Utf8.encode
        "<?php\nnamespace Acme;\nclass Names { public function translate() {} }\n".toList))])]⟩

private def plantLibrary : ClassLibrary := .make [.make "Acme" (.ofString "/src")]

private def plantHelpers : BoundHelpers :=
  (BoundHelpers.empty.bind "Pump" "Acme\\Pump").bind "I18n" "Acme\\Names"

private def plantText : String :=
  "a = $\x7bOther.go()\x7d\nb = $\x7bI18n.translate('x')\x7d\nc = $\x7bPump.run()\x7d\n"

private def plantTree : SyntaxTree := (parseTemplate plantText).tree

private def plantResolved : Resolving × ClassLibrary :=
  ((ofTree ⟨"file:///Root.fusion"⟩ plantText plantTree #[]).resolve plantHelpers plantDisk).run
    plantLibrary

private def plantPlan (library : ClassLibrary) : List Insertion :=
  resolutionPlan plantHelpers plantTree plantDisk library

/-- Two of three chains are followed, to classes loaded one after the other; each alone would load its
class first. -/
theorem resolve_appends_plant :
    Grows plantDisk plantResolved.2 plantResolved.2 ∧ Alike plantDisk plantLibrary plantLibrary ∧
      plantResolved.1.counts = ⟨2, 1⟩ ∧
      (plantResolved.1.file.withTag .helperMethod).length = 2 ∧
      ((plantPlan plantResolved.2).filterMap Insertion.step?).map (·.cls.identity) = [0, 1] ∧
      ((plantPlan plantLibrary).filterMap Insertion.step?).map (·.cls.identity) = [0, 0] ∧
      (plantPlan plantLibrary).map Insertion.anonymous =
        (plantPlan plantResolved.2).map Insertion.anonymous := by
  obtain ⟨-, -, -, -, alike, -, methods, -, -⟩ :=
    resolve_appends ⟨"file:///Root.fusion"⟩ plantText plantTree #[] plantHelpers plantDisk plantLibrary
  obtain ⟨counts, together, alone⟩ : plantResolved.1.counts = ⟨2, 1⟩ ∧
      ((plantPlan plantResolved.2).filterMap Insertion.step?).map (·.cls.identity) = [0, 1] ∧
      ((plantPlan plantLibrary).filterMap Insertion.step?).map (·.cls.identity) = [0, 0] := by
    decide +kernel
  change plantResolved.1.counts.steps = (plantResolved.1.file.withTag .helperMethod).length at methods
  rw [counts] at methods
  exact ⟨.refl, .refl _, counts, methods.symm, together, alone, alike _ (.refl _)⟩

end TemplateFile

end FusionAtlas
