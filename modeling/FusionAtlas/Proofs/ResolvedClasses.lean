import FusionAtlas.Proofs.ChainReference
import FusionAtlas.Resolution

/-!
The classes that resolution writes into a file. Whatever a file is resolved with, each class in its
entries is behind it the one the library has loaded under the name of the class. Main statement:
`TemplateFile.resolve_holding`.
-/

set_option autoImplicit false
set_option relaxedAutoImplicit false

namespace FusionAtlas

namespace ClassLibrary

/-- Classes are loaded under their own names, and the given ones are among those loaded. -/
def Holding (held : List LoadedClass) (library : ClassLibrary) : Prop :=
  library.WellKeyed ∧ ∀ cls ∈ held, library.loaded? cls.declaration.fqcn = some cls

namespace Holding

variable {held fewer : List LoadedClass} {library : ClassLibrary} {disk : Disk}

theorem subset (holding : Holding held library) (included : fewer ⊆ held) :
    Holding fewer library :=
  ⟨holding.1, fun cls member => holding.2 cls (included member)⟩

theorem append (first : Holding held library) (second : Holding fewer library) :
    Holding (held ++ fewer) library := by
  refine ⟨first.1, fun cls member => ?_⟩
  rcases List.mem_append.mp member with member | member
  · exact first.2 cls member
  · exact second.2 cls member

theorem of_grows {a b : ClassLibrary} (holding : Holding held a) (grows : Grows disk a b) :
    Holding held b :=
  ⟨holding.1.of_grows grows, fun cls member => grows.loaded? (holding.2 cls member)⟩

/-- The answer of a lookup is held behind it. -/
theorem lookup (holding : Holding held library) (disk : Disk) (fqcn : String) :
    Holding ((library.lookup disk fqcn).1.toList ++ held) (library.lookup disk fqcn).2 := by
  have grown := holding.of_grows (.lookup library disk fqcn)
  refine append ⟨grown.1, fun cls member => ?_⟩ grown
  have loaded : (library.lookup disk fqcn).2.loaded? fqcn = some cls :=
    (library.loaded?_lookup_self disk fqcn).trans (Option.mem_toList.mp member)
  have name : cls.declaration.fqcn = ClassDirectory.keyOf fqcn := grown.1.fqcn_of_loaded loaded
  have same : ClassDirectory.keyOf cls.declaration.fqcn = ClassDirectory.keyOf fqcn := by
    rw [name, ClassDirectory.keyOf_keyOf]
  rw [loaded?_congr _ same, loaded]

end Holding

end ClassLibrary

open LookupProgram ClassLibrary

variable {disk : Disk} {held : List LoadedClass}

theorem stable_holding (disk : Disk) (held : List LoadedClass) : Stable disk (Holding held) :=
  fun _ _ grows holding => holding.of_grows grows

theorem findClass_holding (fqcn : String) :
    Triple disk (Holding held) (findClass disk fqcn) fun answer => Holding (answer.toList ++ held) :=
  fun library holding => ⟨.lookup library disk fqcn, holding.lookup disk fqcn⟩

namespace ChainStep

/-- The classes of a step. -/
def classes (step : ChainStep) : List LoadedClass := [step.helper.cls, step.cls]

end ChainStep

namespace Chain

variable {tree : SyntaxTree} {helpers : BoundHelpers} {objectNode : NodeId}

theorem start_holding :
    Triple disk (Holding held) (start tree helpers disk objectNode) fun begun =>
      Holding (begun.toOption.toList.map (·.cls) ++ held) := by
  have aborts (abort : ChainAbort) :
      Triple disk (Holding held) (pure (.error abort)) fun begun : Except ChainAbort ChainStart =>
        Holding (begun.toOption.toList.map (·.cls) ++ held) :=
    .pure fun _ holding => holding
  unfold start
  split
  · split
    · exact aborts _
    · split
      · exact aborts _
      · refine (findClass_holding _).bind fun answer => ?_
        cases answer with
        | none => exact aborts _
        | some cls => exact .pure fun _ holding => holding
  · exact aborts _

theorem nextClass_holding (method : MethodDeclaration) :
    Triple disk (Holding held) (nextClass disk method) fun answer =>
      Holding (answer.toList ++ held) := by
  unfold nextClass
  split
  · exact findClass_holding _
  · exact .pure fun _ holding => holding

end Chain

namespace ChainWalk

variable {tree : SyntaxTree} {helper : ChainStart}

/-- A walk whose classes are held comes by steps whose classes are. -/
theorem collect_holding (ahead : List NodeId) (cursor : Option LoadedClass)
    (known : helper.cls :: cursor.toList ⊆ held) :
    Triple disk (Holding held) (collect tree disk helper ⟨cursor, ahead⟩) fun steps =>
      Holding (steps.flatMap ChainStep.classes ++ held) := by
  intro library holding
  induction ahead generalizing cursor held library with
  | nil =>
    cases cursor with
    | none =>
      rw [collect_ended]
      exact ⟨.refl, holding⟩
    | some cls =>
      rw [collect_nil]
      exact ⟨.refl, holding⟩
  | cons segment ahead ih =>
    cases cursor with
    | none =>
      rw [collect_ended]
      exact ⟨.refl, holding⟩
    | some cls =>
      cases call : Chain.callOf? tree cls segment with
      | none =>
        rw [collect_of_skip call]
        exact ih (some cls) known library holding
      | some found =>
        obtain ⟨name, method⟩ := found
        rw [collect_of_call call]
        obtain ⟨looked, reached⟩ := Chain.nextClass_holding method library holding
        have ahead_known : helper.cls :: ((Chain.nextClass disk method).run library).1.toList ⊆
            ((Chain.nextClass disk method).run library).1.toList ++ held := by
          intro other member
          rcases List.mem_cons.mp member with rfl | member
          · exact List.mem_append_right _ (known (List.mem_cons_self ..))
          · exact List.mem_append_left _ member
        obtain ⟨walked, collected⟩ := ih _ ahead_known _ reached
        refine ⟨looked.trans walked, collected.subset ?_⟩
        intro other member
        simp only [List.flatMap_cons, List.mem_append, ChainStep.classes, Chain.stepAt,
          List.mem_cons, List.not_mem_nil, or_false] at member ⊢
        rcases member with ((rfl | rfl) | member) | member
        · exact Or.inr (Or.inr (known (List.mem_cons_self ..)))
        · exact Or.inr (Or.inr (known (by simp)))
        · exact Or.inl member
        · exact Or.inr (Or.inr member)

end ChainWalk

namespace Chain

/-- The classes of a chain that was followed. -/
def classesOf (followed : Except ChainAbort (ChainStart × List ChainStep)) : List LoadedClass :=
  followed.toOption.toList.flatMap fun found => found.2.flatMap ChainStep.classes

theorem follow_holding (tree : SyntaxTree) (helpers : BoundHelpers) (objectNode : NodeId) :
    Triple disk (Holding held) (follow tree helpers disk objectNode) fun followed =>
      Holding (classesOf followed ++ held) := by
  unfold follow
  refine start_holding.bind fun begun => ?_
  cases begun with
  | error abort => exact .pure fun _ holding => holding
  | ok helper =>
    have known : helper.cls :: (some helper.cls).toList ⊆ [helper.cls] ++ held := by simp
    refine (ChainWalk.collect_holding helper.remaining (some helper.cls) known).bind fun steps => ?_
    refine .pure fun _ holding => holding.subset ?_
    intro cls member
    simp only [classesOf, Except.toOption, Option.toList_some, List.flatMap_cons, List.flatMap_nil,
      List.append_nil, List.mem_append] at member
    rcases member with member | member
    · exact List.mem_append_left _ member
    · exact List.mem_append_right _ (List.mem_append_right _ member)

end Chain

namespace Attachment

/-- The class of an attachment, if it has one. -/
def classes (attachment : Attachment) : List LoadedClass := attachment.content.class?.toList

variable {tree : SyntaxTree}

theorem reference_holding (written : List Char) (literal : NodeId) (range : ByteRange) :
    Triple disk (Holding held) (reference disk written literal range) fun attachment =>
      Holding (attachment.toList.flatMap classes ++ held) := by
  unfold reference
  refine (findClass_holding _).bind fun found => .pure fun _ holding => ?_
  cases found with
  | none => exact holding
  | some cls => exact holding

theorem ofStep_holding (step : ChainStep) :
    Triple disk (Holding held) (ofStep tree disk step) fun attachment =>
      Holding (attachment.toList.flatMap classes ++ held) := by
  unfold ofStep
  split
  · simp only
    split
    · exact .pure fun _ holding => holding
    · split
      · exact reference_holding _ _ _
      · exact .pure fun _ holding => holding
  · exact .pure fun _ holding => holding

/-- If each of a list of computations comes by attachments that speak of held classes, then so do all
together. -/
theorem mapM_holding {α β : Type} {f : α → StateM ClassLibrary β} {found : β → List Attachment}
    (step : ∀ a, Triple disk (Holding held) (f a) fun b =>
      Holding ((found b).flatMap classes ++ held)) (items : List α) :
    Triple disk (Holding held) (items.mapM f) fun results =>
      Holding ((results.flatMap found).flatMap classes ++ held) := by
  have mapped := Triple.mapM (stable_holding disk held) (fun _ => stable_holding disk _) step items
  refine mapped.mono fun results library ⟨kept, each⟩ => ⟨kept.1, fun cls member => ?_⟩
  rcases List.mem_append.mp member with member | member
  · obtain ⟨attachment, listed, speaks⟩ := List.mem_flatMap.mp member
    obtain ⟨b, among, attached⟩ := List.mem_flatMap.mp listed
    have spoken : cls ∈ (found b).flatMap classes := List.mem_flatMap.mpr ⟨attachment, attached, speaks⟩
    exact (each b among).2 cls (List.mem_append_left _ spoken)
  · exact kept.2 cls member

theorem filterMap_holding {α : Type} {f : α → StateM ClassLibrary (Option Attachment)}
    (step : ∀ a, Triple disk (Holding held) (f a) fun attachment =>
      Holding (attachment.toList.flatMap classes ++ held)) (items : List α) :
    Triple disk (Holding held) (do return (← items.mapM f).filterMap id) fun attachments =>
      Holding (attachments.flatMap classes ++ held) := by
  refine (mapM_holding step items).bind fun results => .pure fun library holding => ?_
  rw [List.filterMap_eq_flatMap_toList]
  exact holding

theorem ofMetaClasses_holding :
    Triple disk (Holding held) (ofMetaClasses tree disk) fun attachments =>
      Holding (attachments.flatMap classes ++ held) := by
  refine filterMap_holding (fun node => ?_) _
  unfold ofMetaClass
  split
  · exact reference_holding _ _ _
  · exact .pure fun _ holding => holding

theorem ofFilters_holding (literal : NodeId) (node : SyntaxNode) :
    Triple disk (Holding held) (ofFilters disk literal node) fun attachments =>
      Holding (attachments.flatMap classes ++ held) :=
  filterMap_holding (fun _ => reference_holding _ _ _) _

theorem ofInstanceofFilters_holding :
    Triple disk (Holding held) (ofInstanceofFilters tree disk) fun attachments =>
      Holding (attachments.flatMap classes ++ held) := by
  have each (entry : SyntaxNode × NodeId) :
      Triple disk (Holding held) (ofFilters disk entry.2 entry.1) fun attachments =>
        Holding ((id attachments).flatMap classes ++ held) := ofFilters_holding entry.2 entry.1
  refine (mapM_holding each _).bind fun results => .pure fun library holding => ?_
  rw [List.flatMap_id] at holding
  exact holding

end Attachment

namespace TemplateFile

/-- The classes in the entries of a file. -/
def classes (file : TemplateFile) : List LoadedClass :=
  file.entries.toList.filterMap fun entry => entry.content.class?

variable (file : TemplateFile)

theorem classes_add (content : EntryContent) (tag : NodeTag) (range : ByteRange) :
    (file.add content tag range).classes = file.classes ++ content.class?.toList := by
  simp only [classes, add, Array.toList_push, List.filterMap_append]
  cases held : content.class? with
  | none => simp [held]
  | some cls => simp [held]

theorem classes_attachStep (step : ChainStep) :
    (file.attachStep step).2.classes = file.classes ++ step.classes := by
  rw [attachStep, classes_add, classes_add, List.append_assoc]
  rfl

theorem classes_foldl_attach (attachments : List Attachment) :
    (attachments.foldl attach file).classes =
      file.classes ++ attachments.flatMap Attachment.classes := by
  induction attachments generalizing file with
  | nil => exact (List.append_nil _).symm
  | cons attachment attachments ih =>
    rw [List.foldl_cons, ih, attach, classes_add, List.flatMap_cons, List.append_assoc]
    rfl

@[simp] theorem uri_foldl_attach (attachments : List Attachment) :
    (attachments.foldl attach file).uri = file.uri := by
  induction attachments generalizing file with
  | nil => rfl
  | cons attachment attachments ih => rw [List.foldl_cons, ih, attach, add]

/-- A file that was not resolved yet speaks of no class. -/
theorem addTree_spec (speaksOfNone : file.classes = []) :
    file.addTree.classes = [] ∧ file.addTree.uri = file.uri := by
  unfold addTree
  generalize file.tree.nodes.toList.zipIdx = nodes
  induction nodes generalizing file with
  | nil => exact ⟨speaksOfNone, rfl⟩
  | cons node nodes ih =>
    rw [List.foldl_cons]
    obtain ⟨none, uri⟩ := ih (file.add (.treeNode node.2) node.1.kind.tag node.1.range)
      (by rw [classes_add, speaksOfNone]; rfl)
    exact ⟨none, uri⟩

theorem ofTree_spec (uri : FileUri) (text : String) (tree : SyntaxTree)
    (errors : Array Template.SyntaxError) :
    (ofTree uri text tree errors).classes = [] ∧ (ofTree uri text tree errors).uri = uri :=
  addTree_spec ⟨uri, text, .ofText text, tree, errors, #[], .empty, tree.components⟩ rfl

end TemplateFile

namespace Resolving

variable {uri : FileUri} {r : Resolving}

/-- The file is that of the name, and its classes are held, with some others. -/
def HoldingAt (uri : FileUri) (held : List LoadedClass) (r : Resolving) (library : ClassLibrary) :
    Prop :=
  r.file.uri = uri ∧ Holding (r.file.classes ++ held) library

theorem attachAll_holding {library : ClassLibrary} {attachments : List Attachment}
    (file : r.file.uri = uri)
    (holding : Holding (attachments.flatMap Attachment.classes ++ (r.file.classes ++ held)) library) :
    HoldingAt uri held (r.attachAll attachments) library := by
  refine ⟨(TemplateFile.uri_foldl_attach _ _).trans file, holding.subset ?_⟩
  rw [attachAll, TemplateFile.classes_foldl_attach]
  intro cls member
  simp only [List.mem_append] at member ⊢
  rcases member with (member | member) | member
  · exact Or.inr (Or.inl member)
  · exact Or.inl member
  · exact Or.inr (Or.inr member)

/-- What is found is attached, and the classes in the file stay held. -/
theorem bind_holding {α : Type} {m : StateM ClassLibrary α} {attachments : α → List Attachment}
    {f : α → StateM ClassLibrary Resolving} (r : Resolving)
    (found : Triple disk (Holding (r.file.classes ++ held)) m fun a =>
      Holding ((attachments a).flatMap Attachment.classes ++ (r.file.classes ++ held)))
    (next : ∀ a, Triple disk (HoldingAt uri held (r.attachAll (attachments a))) (f a)
      (HoldingAt uri held)) :
    Triple disk (HoldingAt uri held r) (m >>= f) (HoldingAt uri held) := by
  rintro library ⟨file, holding⟩
  obtain ⟨grown, behind⟩ := found library holding
  obtain ⟨more, final⟩ := next _ _ (attachAll_holding file behind)
  exact ⟨grown.trans more, final⟩

theorem attach_holding (r : Resolving) (step : ChainStep) (known : step.classes ⊆ held) :
    Triple disk (HoldingAt uri held r) (attach disk r step) (HoldingAt uri held) := by
  let attached : Resolving := ⟨(r.file.attachStep step).2, { r.counts with steps := r.counts.steps + 1 }⟩
  have both : Triple disk (HoldingAt uri held attached) (attach disk r step) (HoldingAt uri held) :=
    bind_holding attached (Attachment.ofStep_holding step) fun _ => .pure fun _ behind => behind
  rintro library ⟨file, holding⟩
  refine both library ⟨file, holding.subset ?_⟩
  rw [TemplateFile.classes_attachStep, List.append_assoc]
  intro cls member
  simp only [List.mem_append] at member ⊢
  rcases member with member | member | member
  · exact Or.inl member
  · exact Or.inr (known member)
  · exact Or.inr member

theorem chain_holding (helpers : BoundHelpers) (r : Resolving) (objectNode : NodeId) :
    Triple disk (HoldingAt uri held r) (chain helpers disk r objectNode) (HoldingAt uri held) := by
  rintro library ⟨file, holding⟩
  have followed : Triple disk (Holding (r.file.classes ++ held)) (chain helpers disk r objectNode)
      (HoldingAt uri held) := by
    unfold chain
    refine (Chain.follow_holding _ helpers objectNode).bind fun followed => ?_
    cases followed with
    | error abort => exact .pure fun _ behind => ⟨file, behind⟩
    | ok found =>
      obtain ⟨helper, steps⟩ := found
      let known : List LoadedClass := steps.flatMap ChainStep.classes ++ held
      have each : ∀ r, ∀ step ∈ steps,
          Triple disk (HoldingAt uri known r) (attach disk r step) (HoldingAt uri known) := by
        intro r step member
        refine attach_holding r step fun cls speaks => ?_
        exact List.mem_append_left _ (List.mem_flatMap.mpr ⟨step, member, speaks⟩)
      have all := Triple.foldlM steps each r
      intro library behind
      have start : HoldingAt uri known r library := by
        refine ⟨file, behind.subset ?_⟩
        intro cls member
        simp only [known, Chain.classesOf, Except.toOption, Option.toList_some, List.flatMap_cons,
          List.flatMap_nil, List.append_nil, List.mem_append] at member ⊢
        rcases member with member | member | member
        · exact Or.inr (Or.inl member)
        · exact Or.inl member
        · exact Or.inr (Or.inr member)
      obtain ⟨grown, final, held_behind⟩ := all library start
      refine ⟨grown, final, held_behind.subset ?_⟩
      intro cls member
      rcases List.mem_append.mp member with member | member
      · exact List.mem_append_left _ member
      · exact List.mem_append_right _ (List.mem_append_right _ member)
  exact followed library holding

end Resolving

namespace TemplateFile

/-- Resolving a file only looks classes up, keeps the name of the file, and leaves it with classes
that are those loaded under their names behind it. -/
theorem resolve_holding (helpers : BoundHelpers) (disk : Disk) (file : TemplateFile) :
    Triple disk (Holding file.classes) (file.resolve helpers disk) fun r library =>
      r.file.uri = file.uri ∧ Holding r.file.classes library := by
  have literals (r : Resolving) : Triple disk (Resolving.HoldingAt file.uri [] r)
      (do
        let metaClasses ← Attachment.ofMetaClasses file.tree disk
        let filters ← Attachment.ofInstanceofFilters file.tree disk
        return (r.attachAll metaClasses).attachAll filters)
      (Resolving.HoldingAt file.uri []) :=
    Resolving.bind_holding r Attachment.ofMetaClasses_holding fun _ =>
      Resolving.bind_holding _ Attachment.ofInstanceofFilters_holding fun _ =>
        .pure fun _ behind => behind
  have resolved : Triple disk (Resolving.HoldingAt file.uri [] ⟨file, 0, 0⟩)
      (file.resolve helpers disk) (Resolving.HoldingAt file.uri []) := by
    unfold resolve
    simp only
    split
    · exact Triple.bind (.pure fun _ start => start) literals
    · refine Triple.bind (.foldlM _ ?_ _) literals
      exact fun r objectNode _ => Resolving.chain_holding helpers r objectNode
  intro library holding
  have start : Resolving.HoldingAt file.uri [] ⟨file, 0, 0⟩ library := ⟨rfl, by simpa using holding⟩
  obtain ⟨grown, name, behind⟩ := resolved library start
  exact ⟨grown, name, by simpa using behind⟩

end TemplateFile

end FusionAtlas
