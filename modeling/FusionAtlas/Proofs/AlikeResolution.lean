import FusionAtlas.Proofs.AlikeLookups
import FusionAtlas.Proofs.ResolvedClasses

/-!
Resolution in libraries that answer alike. What a file is resolved to depends on the classes that are
found, but not on when they were loaded: the entries are the same, the identities of their classes apart,
and the same names are looked up on the way. Main statement: `TemplateFile.resolve_inStep`.
-/

set_option autoImplicit false
set_option relaxedAutoImplicit false

namespace FusionAtlas

open LookupProgram

variable {disk : Disk} {tree : SyntaxTree}

/-- The same without the identities of the classes. -/
def ChainStart.anonymous (helper : ChainStart) : ChainStart :=
  { helper with cls := helper.cls.anonymous }

def ChainStep.anonymous (step : ChainStep) : ChainStep :=
  { step with helper := step.helper.anonymous, cls := step.cls.anonymous }

def EntryContent.anonymous : EntryContent → EntryContent
  | helper identifier cls objectNode method => helper identifier cls.anonymous objectNode method
  | helperMethod identifier cls method segment owner =>
    helperMethod identifier cls.anonymous method segment owner
  | classReference identifier cls literal => classReference identifier cls.anonymous literal
  | treeNode node => treeNode node
  | label value literal => label value literal

def Entry.anonymous (entry : Entry) : Entry := { entry with content := entry.content.anonymous }

def Attachment.anonymous (attachment : Attachment) : Attachment :=
  { attachment with content := attachment.content.anonymous }

def TemplateFile.anonymous (file : TemplateFile) : TemplateFile :=
  { file with entries := file.entries.map Entry.anonymous }

namespace Chain

/-- How a start of a chain looks without identities. -/
def erased (begun : Except ChainAbort ChainStart) : Except ChainAbort ChainStart :=
  begun.map ChainStart.anonymous

theorem start_inStep (helpers : BoundHelpers) (objectNode : NodeId) :
    InStep disk erased (start tree helpers disk objectNode) (start tree helpers disk objectNode) := by
  unfold start
  split
  · split
    · exact .pure rfl
    · split
      · exact .pure rfl
      · refine (findClass_inStep disk _).bind fun answer other same => ?_
        cases answer with
        | none =>
          cases other with
          | none => exact .pure rfl
          | some cls => cases same
        | some cls =>
          cases other with
          | none => cases same
          | some cls' =>
            have equal : cls.anonymous = cls'.anonymous := Option.some.inj same
            refine .pure ?_
            simp only [erased, Except.map, ChainStart.anonymous, equal]
  · exact .pure rfl

theorem nextClass_inStep (method : MethodDeclaration) :
    InStep disk (Option.map LoadedClass.anonymous) (nextClass disk method) (nextClass disk method) := by
  unfold nextClass
  split
  · exact findClass_inStep disk _
  · exact .pure rfl

theorem callOf?_congr {cls other : LoadedClass} (same : cls.anonymous = other.anonymous)
    (segment : NodeId) : callOf? tree cls segment = callOf? tree other segment := by
  have declared : cls.declaration = other.declaration := (LoadedClass.mk.inj same).2
  simp only [callOf?, declared]

end Chain

namespace ChainWalk

variable {helper other : ChainStart}

/-- Walks from classes that differ only in identity make the same steps, identities apart. -/
theorem collect_inStep (begun : helper.anonymous = other.anonymous) (ahead : List NodeId) :
    ∀ cursor cursor' : Option LoadedClass,
      cursor.map LoadedClass.anonymous = cursor'.map LoadedClass.anonymous →
      InStep disk (List.map ChainStep.anonymous) (collect tree disk helper ⟨cursor, ahead⟩)
        (collect tree disk other ⟨cursor', ahead⟩) := by
  have ended (helper : ChainStart) (ahead : List NodeId) :
      collect tree disk helper ⟨none, ahead⟩ = pure [] := funext fun _ => collect_ended
  induction ahead with
  | nil =>
    intro cursor cursor' same
    have none (helper : ChainStart) (cursor : Option LoadedClass) :
        collect tree disk helper ⟨cursor, []⟩ = pure [] := by
      cases cursor with
      | none => exact ended helper []
      | some cls => exact funext fun _ => collect_nil
    rw [none, none]
    exact .pure rfl
  | cons segment ahead ih =>
    intro cursor cursor' same
    cases cursor with
    | none =>
      cases cursor' with
      | some cls => cases same
      | none =>
        rw [ended, ended]
        exact .pure rfl
    | some cls =>
      cases cursor' with
      | none => cases same
      | some cls' =>
        have equal : cls.anonymous = cls'.anonymous := Option.some.inj same
        have agree : Chain.callOf? tree cls segment = Chain.callOf? tree cls' segment :=
          Chain.callOf?_congr equal segment
        cases call : Chain.callOf? tree cls segment with
        | none =>
          rw [show collect tree disk helper ⟨some cls, segment :: ahead⟩ = _ from
              funext fun _ => collect_of_skip call,
            show collect tree disk other ⟨some cls', segment :: ahead⟩ = _ from
              funext fun _ => collect_of_skip (agree ▸ call)]
          exact ih (some cls) (some cls') same
        | some found =>
          obtain ⟨name, method⟩ := found
          have unfolded {helper : ChainStart} {cls : LoadedClass}
              (call : Chain.callOf? tree cls segment = some (name, method)) :
              collect tree disk helper ⟨some cls, segment :: ahead⟩ = (do
                let reached ← Chain.nextClass disk method
                let more ← collect tree disk helper ⟨reached, ahead⟩
                return Chain.stepAt tree helper cls segment name method :: more) :=
            funext fun _ => collect_of_call call
          rw [unfolded call, unfolded (agree ▸ call)]
          refine (Chain.nextClass_inStep method).bind fun reached reached' alike => ?_
          refine (ih reached reached' alike).bind fun more more' rest => .pure ?_
          simp only [List.map_cons, rest, ChainStep.anonymous, Chain.stepAt, begun, equal]

end ChainWalk

namespace Chain

/-- How a chain that was followed looks without identities. -/
def anonymous (followed : Except ChainAbort (ChainStart × List ChainStep)) :
    Except ChainAbort (ChainStart × List ChainStep) :=
  followed.map fun found => (found.1.anonymous, found.2.map ChainStep.anonymous)

theorem follow_inStep (tree : SyntaxTree) (helpers : BoundHelpers) (disk : Disk)
    (objectNode : NodeId) :
    InStep disk anonymous (follow tree helpers disk objectNode)
      (follow tree helpers disk objectNode) := by
  unfold follow
  refine (start_inStep helpers objectNode).bind fun begun other same => ?_
  cases begun with
  | error abort =>
    cases other with
    | error abort' =>
      cases same
      exact .pure rfl
    | ok helper => cases same
  | ok helper =>
    cases other with
    | error abort => cases same
    | ok helper' =>
      have equal : helper.anonymous = helper'.anonymous := Except.ok.inj same
      have reached : (some helper.cls).map LoadedClass.anonymous =
          (some helper'.cls).map LoadedClass.anonymous :=
        congrArg some (congrArg ChainStart.cls equal :)
      have ahead : helper.remaining = helper'.remaining := (congrArg ChainStart.remaining equal :)
      simp only [steps, ChainWalk.ofStart, ← ahead]
      refine (ChainWalk.collect_inStep equal helper.remaining _ _ reached).bind
        fun steps steps' rest => .pure ?_
      simp only [anonymous, Except.map, equal, rest]

end Chain

namespace Attachment

theorem reference_inStep (written : List Char) (literal : NodeId) (range : ByteRange) :
    InStep disk (Option.map anonymous) (reference disk written literal range)
      (reference disk written literal range) := by
  unfold reference
  refine (findClass_inStep disk _).bind fun found other same => .pure ?_
  cases found with
  | none =>
    cases other with
    | none => rfl
    | some cls => cases same
  | some cls =>
    cases other with
    | none => cases same
    | some cls' =>
      have equal : cls.anonymous = cls'.anonymous := Option.some.inj same
      simp only [Option.map_some, anonymous, EntryContent.anonymous, equal]

theorem ofStep_inStep {step other : ChainStep} (same : step.anonymous = other.anonymous) :
    InStep disk (Option.map anonymous) (ofStep tree disk step) (ofStep tree disk other) := by
  have segment : step.segment = other.segment := (congrArg ChainStep.segment same :)
  have identifier : step.helper.identifier = other.helper.identifier :=
    (congrArg (fun step : ChainStep => step.helper.identifier) same :)
  have equal : ofStep tree disk step = ofStep tree disk other := by
    rw [ofStep, ofStep, segment, identifier]
  rw [equal]
  unfold ofStep
  split
  · simp only
    split
    · exact .pure rfl
    · split
      · exact reference_inStep _ _ _
      · exact .pure rfl
  · exact .pure rfl

/-- References found for one item after the other. -/
theorem filterMap_inStep {α : Type} {f : α → StateM ClassLibrary (Option Attachment)}
    (step : ∀ x, InStep disk (Option.map anonymous) (f x) (f x)) (items : List α) :
    InStep disk (List.map anonymous) (do return (← items.mapM f).filterMap id)
      (do return (← items.mapM f).filterMap id) := by
  refine (InStep.mapM step items).bind fun found other same => .pure ?_
  have erased (found : List (Option Attachment)) : (found.filterMap id).map anonymous =
      (found.map (Option.map anonymous)).filterMap id := by
    rw [List.filterMap_map, List.map_filterMap]
    rfl
  rw [erased, erased, same]

theorem ofMetaClass_inStep (node : SyntaxNode) :
    InStep disk (Option.map anonymous) (ofMetaClass tree disk node) (ofMetaClass tree disk node) := by
  unfold ofMetaClass
  split
  · exact reference_inStep _ _ _
  · exact .pure rfl

theorem ofMetaClasses_inStep :
    InStep disk (List.map anonymous) (ofMetaClasses tree disk) (ofMetaClasses tree disk) :=
  filterMap_inStep ofMetaClass_inStep _

theorem ofFilters_inStep (literal : NodeId) (node : SyntaxNode) :
    InStep disk (List.map anonymous) (ofFilters disk literal node) (ofFilters disk literal node) :=
  filterMap_inStep (fun _ => reference_inStep _ _ _) _

theorem ofInstanceofFilters_inStep :
    InStep disk (List.map anonymous) (ofInstanceofFilters tree disk)
      (ofInstanceofFilters tree disk) := by
  refine (InStep.mapM (fun entry : SyntaxNode × NodeId => ofFilters_inStep entry.2 entry.1) _).bind
    fun found other same => .pure ?_
  rw [List.map_flatten, List.map_flatten, same]

end Attachment

namespace TemplateFile

variable (file : TemplateFile)

theorem anonymous_add (content : EntryContent) (tag : NodeTag) (range : ByteRange) :
    (file.add content tag range).anonymous = file.anonymous.add content.anonymous tag range := by
  simp only [add, anonymous, Array.map_push, Array.size_map, Entry.anonymous]

theorem anonymous_attachStep (step : ChainStep) :
    (file.attachStep step).2.anonymous = (file.anonymous.attachStep step.anonymous).2 := by
  have size : file.anonymous.size = file.size := Array.size_map ..
  simp only [attachStep, anonymous_add, size, EntryContent.anonymous, ChainStep.anonymous,
    ChainStart.anonymous]

theorem anonymous_foldl_attach (attachments : List Attachment) :
    (attachments.foldl attach file).anonymous =
      (attachments.map Attachment.anonymous).foldl attach file.anonymous := by
  induction attachments generalizing file with
  | nil => rfl
  | cons attachment attachments ih =>
    rw [List.foldl_cons, ih, attach, anonymous_add]
    rfl

end TemplateFile

namespace Resolving

/-- How far a resolution has come, without identities. -/
def anonymous (r : Resolving) : Resolving := ⟨r.file.anonymous, r.counts⟩

theorem anonymous_attachAll (r : Resolving) (attachments : List Attachment) :
    (r.attachAll attachments).anonymous =
      r.anonymous.attachAll (attachments.map Attachment.anonymous) := by
  simp only [anonymous, attachAll, TemplateFile.anonymous_foldl_attach, List.length_map]

theorem tree_eq {r other : Resolving} (same : r.anonymous = other.anonymous) :
    r.file.tree = other.file.tree :=
  congrArg (·.file.tree) same

theorem attach_inStep {r other : Resolving} {step step' : ChainStep}
    (same : r.anonymous = other.anonymous) (alike : step.anonymous = step'.anonymous) :
    InStep disk anonymous (attach disk r step) (attach disk other step') := by
  unfold attach
  simp only [tree_eq same]
  refine (Attachment.ofStep_inStep alike).bind fun found found' equal => .pure ?_
  obtain ⟨file, counts⟩ := Resolving.mk.inj same
  have attachments : found.toList.map Attachment.anonymous = found'.toList.map Attachment.anonymous := by
    rw [← Option.toList_map, ← Option.toList_map, equal]
  rw [anonymous_attachAll, anonymous_attachAll, attachments]
  simp only [anonymous, TemplateFile.anonymous_attachStep, file, counts, alike]

theorem chain_inStep (helpers : BoundHelpers) {r other : Resolving} (objectNode : NodeId)
    (same : r.anonymous = other.anonymous) :
    InStep disk anonymous (chain helpers disk r objectNode) (chain helpers disk other objectNode) := by
  unfold chain
  simp only [tree_eq same]
  refine (Chain.follow_inStep _ helpers disk objectNode).bind fun followed followed' equal => ?_
  cases followed with
  | error abort =>
    cases followed' with
    | error abort' => exact .pure same
    | ok found => cases equal
  | ok found =>
    cases followed' with
    | error abort => cases equal
    | ok found' =>
      have steps : found.2.map ChainStep.anonymous = found'.2.map ChainStep.anonymous :=
        congrArg Prod.snd (Except.ok.inj equal)
      exact InStep.foldlM (fun _ _ step step' same (alike : step.anonymous = step'.anonymous) =>
        attach_inStep same alike) steps same

end Resolving

/-- In libraries that answer alike a file is resolved to the same, identities apart, and the same names are
looked up. -/
theorem TemplateFile.resolve_inStep (helpers : BoundHelpers) (disk : Disk) (file : TemplateFile) :
    InStep disk Resolving.anonymous (file.resolve helpers disk) (file.resolve helpers disk) := by
  have literals {r other : Resolving} (same : r.anonymous = other.anonymous) :
      InStep disk Resolving.anonymous
        (do
          let metaClasses ← Attachment.ofMetaClasses file.tree disk
          let filters ← Attachment.ofInstanceofFilters file.tree disk
          return (r.attachAll metaClasses).attachAll filters)
        (do
          let metaClasses ← Attachment.ofMetaClasses file.tree disk
          let filters ← Attachment.ofInstanceofFilters file.tree disk
          return (other.attachAll metaClasses).attachAll filters) := by
    refine Attachment.ofMetaClasses_inStep.bind fun first first' equal => ?_
    refine Attachment.ofInstanceofFilters_inStep.bind fun second second' equal' => .pure ?_
    simp only [Resolving.anonymous_attachAll, equal, equal', same]
  have chains (nodes : List NodeId) (r : Resolving) : InStep disk Resolving.anonymous
      (nodes.foldlM (Resolving.chain helpers disk) r) (nodes.foldlM (Resolving.chain helpers disk) r) := by
    refine InStep.foldlM (fun r other node node' same (equal : id node = id node') => ?_) rfl rfl
    obtain rfl : node = node' := equal
    exact Resolving.chain_inStep helpers node same
  have none (r : Resolving) :
      InStep disk Resolving.anonymous (pure r : StateM ClassLibrary Resolving) (pure r) := .pure rfl
  unfold resolve
  simp only
  split
  · exact (none _).bind fun _ _ same => literals same
  · exact (chains _ _).bind fun _ _ same => literals same

end FusionAtlas
