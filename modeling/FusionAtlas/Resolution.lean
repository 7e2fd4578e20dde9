import FusionAtlas.Resolution.Literals

/-!
Resolving a file: the chains in its expressions are followed one after the other, then the names of
classes in its literals are looked up. Each result is attached to the file; what cannot be resolved
attaches nothing.
-/

set_option autoImplicit false
set_option relaxedAutoImplicit false

namespace FusionAtlas

namespace TemplateFile

/-- Attach a helper and a method, each knowing the entry of the other, and tell these entries. -/
def attachStep (file : TemplateFile) (step : ChainStep) : (EntryId × EntryId) × TemplateFile :=
  let helper := file.size
  let method := helper + 1
  ((helper, method),
    (file.add (.helper step.helper.identifier step.helper.cls step.helper.objectNode method) .helper
        step.helper.range).add
      (.helperMethod step.method.name step.cls step.method step.segment helper) .helperMethod
        step.range)

def attach (file : TemplateFile) (attachment : Attachment) : TemplateFile :=
  file.add attachment.content attachment.tag attachment.range

end TemplateFile

/-- How much a resolution attached. -/
structure ResolutionCounts where
  steps : Nat
  attachments : Nat
  deriving DecidableEq, Repr, Inhabited

/-- A file on its way through resolution. -/
structure Resolving where
  file : TemplateFile
  counts : ResolutionCounts
  deriving Repr

namespace Resolving

def attachAll (r : Resolving) (attachments : List Attachment) : Resolving :=
  ⟨attachments.foldl TemplateFile.attach r.file,
    { r.counts with attachments := r.counts.attachments + attachments.length }⟩

/-- Attach a step, and what its argument means. -/
def attach (disk : Disk) (r : Resolving) (step : ChainStep) : StateM ClassLibrary Resolving := do
  let attached : Resolving :=
    ⟨(r.file.attachStep step).2, { r.counts with steps := r.counts.steps + 1 }⟩
  let attachment ← Attachment.ofStep r.file.tree disk step
  return attached.attachAll attachment.toList

/-- Attach the steps of a chain that was followed, nothing if it was not. -/
def attachSteps (disk : Disk) (r : Resolving) :
    Except ChainAbort (ChainStart × List ChainStep) → StateM ClassLibrary Resolving
  | .error _ => return r
  | .ok (_, steps) => steps.foldlM (attach disk) r

/-- Follow a chain and attach its steps. -/
def chain (helpers : BoundHelpers) (disk : Disk) (r : Resolving) (objectNode : NodeId) :
    StateM ClassLibrary Resolving := do
  attachSteps disk r (← Chain.follow r.file.tree helpers disk objectNode)

end Resolving

namespace TemplateFile

/-- The chains of a file in order. -/
def chains (file : TemplateFile) : List NodeId :=
  (file.withTag .objectNode).filterMap fun entry => entry.content.treeNode?

/-- Resolve a file. -/
def resolve (helpers : BoundHelpers) (disk : Disk) (file : TemplateFile) :
    StateM ClassLibrary Resolving := do
  let r : Resolving := ⟨file, 0, 0⟩
  let r ← if helpers.isEmpty then pure r else file.chains.foldlM (Resolving.chain helpers disk) r
  let r := r.attachAll (← Attachment.ofMetaClasses file.tree disk)
  return r.attachAll (← Attachment.ofInstanceofFilters file.tree disk)

end TemplateFile

end FusionAtlas
