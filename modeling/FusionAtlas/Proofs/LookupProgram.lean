import FusionAtlas.Proofs.ClassLookup
import FusionAtlas.Resolution.Chain

/-!
Computations that look classes up while the disk stays the same. They pass the library of classes on,
and what they show of it is only what lookups do to it. The rules below put the specification of such a
computation together from those of its parts.
-/

set_option autoImplicit false
set_option relaxedAutoImplicit false

namespace FusionAtlas

namespace LookupProgram

variable {α β : Type} {disk : Disk} {pre : ClassLibrary → Prop}

theorem run_bind (m : StateM ClassLibrary α) (f : α → StateM ClassLibrary β)
    (library : ClassLibrary) :
    (m >>= f).run library = (f (m.run library).1).run (m.run library).2 := rfl

/-- Started in a library with `pre`, the computation does nothing to it but look classes up, and ends
with a result and a library that have `post`. -/
def Triple (disk : Disk) (pre : ClassLibrary → Prop) (m : StateM ClassLibrary α)
    (post : α → ClassLibrary → Prop) : Prop :=
  ∀ library, pre library →
    ClassLibrary.Grows disk library (m.run library).2 ∧ post (m.run library).1 (m.run library).2

/-- Lookups on the disk keep the property. -/
def Stable (disk : Disk) (P : ClassLibrary → Prop) : Prop :=
  ∀ a b, ClassLibrary.Grows disk a b → P a → P b

namespace Triple

variable {post : α → ClassLibrary → Prop}

theorem pure {a : α} (holds : ∀ library, pre library → post a library) :
    Triple disk pre (Pure.pure a) post :=
  fun library start => ⟨.refl, holds library start⟩

theorem bind {m : StateM ClassLibrary α} {f : α → StateM ClassLibrary β}
    {last : β → ClassLibrary → Prop} (first : Triple disk pre m post)
    (next : ∀ a, Triple disk (post a) (f a) last) : Triple disk pre (m >>= f) last := by
  intro library start
  obtain ⟨grown, held⟩ := first library start
  obtain ⟨more, done⟩ := next _ _ held
  exact ⟨grown.trans more, done⟩

theorem mono {m : StateM ClassLibrary α} {weaker : α → ClassLibrary → Prop}
    (spec : Triple disk pre m post) (weaken : ∀ a library, post a library → weaker a library) :
    Triple disk pre m weaker := by
  intro library start
  obtain ⟨grown, held⟩ := spec library start
  exact ⟨grown, weaken _ _ held⟩

theorem foldlM {inv : β → ClassLibrary → Prop} {f : β → α → StateM ClassLibrary β} (items : List α)
    (step : ∀ b, ∀ a ∈ items, Triple disk (inv b) (f b a) inv) (start : β) :
    Triple disk (inv start) (items.foldlM f start) inv := by
  induction items generalizing start with
  | nil => exact pure fun _ held => held
  | cons item items ih =>
    rw [List.foldlM_cons]
    have first := step start item (List.mem_cons_self ..)
    exact first.bind (ih fun b a member => step b a (List.mem_cons_of_mem item member))

/-- Every result of a list of computations is good if each is, and lookups keep what is good. -/
theorem mapM {good : β → ClassLibrary → Prop} {f : α → StateM ClassLibrary β}
    (stablePre : Stable disk pre) (stableGood : ∀ b, Stable disk (good b))
    (step : ∀ a, Triple disk pre (f a) good) (items : List α) :
    Triple disk pre (items.mapM f) fun results library =>
      pre library ∧ ∀ b ∈ results, good b library := by
  induction items with
  | nil => exact pure fun _ start => ⟨start, fun _ member => (nomatch member)⟩
  | cons item items ih =>
    rw [List.mapM_cons]
    intro library start
    obtain ⟨grown, first⟩ := step item library start
    obtain ⟨more, kept, others⟩ := ih _ (stablePre _ _ grown start)
    refine ⟨grown.trans more, kept, ?_⟩
    intro b member
    rcases List.mem_cons.mp member with rfl | member
    · exact stableGood _ _ _ more first
    · exact others b member

end Triple

theorem run_findClass (disk : Disk) (fqcn : String) (library : ClassLibrary) :
    (findClass disk fqcn).run library = library.lookup disk fqcn := rfl

end LookupProgram

end FusionAtlas
