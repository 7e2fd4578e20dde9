import FusionAtlas.Proofs.ClassLookup

/-!
Identities of loaded classes. Each class that is loaded gets the next number, so what was forgotten never
comes back: if its file is read again, that is another class. Main statements:
`ClassLibrary.Numbered.lookup` and `ClassLibrary.Gone.lookup`.
-/

set_option autoImplicit false
set_option relaxedAutoImplicit false

namespace FusionAtlas

namespace ClassLibrary

variable {library : ClassLibrary} {disk : Disk} {fqcn : String} {cls : LoadedClass} {uri : FileUri}

/-- The class is loaded, under whatever name. -/
def Holds (library : ClassLibrary) (cls : LoadedClass) : Prop :=
  ∃ directory ∈ library.directories, ∃ entry ∈ directory.classes, entry.2 = cls

theorem holds_of_loaded? (loaded : library.loaded? fqcn = some cls) : library.Holds cls := by
  obtain ⟨⟨n, directory⟩, owner, held⟩ := Option.bind_eq_some_iff.mp loaded
  obtain ⟨entry, search, same⟩ := Option.map_eq_some_iff.mp held
  have member := List.mem_of_getElem? (getElem?_of_owner? owner).1
  exact ⟨directory, member, entry, List.mem_of_find?_eq_some search, same⟩

/-- Some class is loaded from the file of a loaded class. -/
theorem loadedFrom_ne_nil (held : library.Holds cls) :
    (library.loadedFrom cls.declaration.uri).isEmpty = false := by
  obtain ⟨directory, member, entry, listed, rfl⟩ := held
  rw [List.isEmpty_eq_false_iff_exists_mem]
  refine ⟨entry.1, List.mem_flatMap.mpr ⟨directory, member, ?_⟩⟩
  exact List.mem_map.mpr ⟨entry, List.mem_filter.mpr ⟨listed, by simp⟩, rfl⟩

/-- A file has loaded classes if its name is that of the file of one. -/
theorem loadedFrom_ne_nil_iff : (library.loadedFrom uri).isEmpty = false ↔
    ∃ cls, library.Holds cls ∧ cls.declaration.uri = uri := by
  constructor
  · intro loaded
    obtain ⟨name, listed⟩ := List.isEmpty_eq_false_iff_exists_mem.mp loaded
    obtain ⟨directory, member, named⟩ := List.mem_flatMap.mp listed
    obtain ⟨entry, kept, -⟩ := List.mem_map.mp named
    obtain ⟨loaded, same⟩ := List.mem_filter.mp kept
    exact ⟨entry.2, ⟨directory, member, entry, loaded, rfl⟩, of_decide_eq_true same⟩
  · rintro ⟨cls, held, rfl⟩
    exact loadedFrom_ne_nil held

theorem holds_of_purge (held : (library.purge uri).Holds cls) : library.Holds cls := by
  obtain ⟨directory, member, entry, listed, same⟩ := held
  obtain ⟨old, place, rfl⟩ := List.mem_map.mp member
  exact ⟨old, place, entry, List.mem_of_mem_filter listed, same⟩

/-- What a lookup loads has the next number, and it uses the number up. -/
theorem holds_of_lookup (held : (library.lookup disk fqcn).2.Holds cls) :
    library.Holds cls ∨
      (cls.identity = library.nextIdentity ∧
        library.nextIdentity < (library.lookup disk fqcn).2.nextIdentity) := by
  rcases library.lookup_cases disk fqcn with
    ⟨found, -, result⟩ | ⟨-, -, result⟩ | ⟨n, directory, declared, -, -, owner, -, result⟩
  · rw [result] at held
    exact Or.inl held
  · rw [result] at held
    exact Or.inl held
  · rw [result] at held ⊢
    obtain ⟨other, member, entry, listed, rfl⟩ := held
    rcases List.mem_or_eq_of_mem_set member with old | rfl
    · exact Or.inl ⟨other, old, entry, listed, rfl⟩
    · rcases List.mem_append.mp listed with old | new
      · have place := List.mem_of_getElem? (getElem?_of_owner? owner).1
        exact Or.inl ⟨directory, place, entry, old, rfl⟩
      · rw [List.mem_singleton.mp new]
        refine Or.inr ⟨rfl, ?_⟩
        simp only
        omega

theorem nextIdentity_le_lookup (library : ClassLibrary) (disk : Disk) (fqcn : String) :
    library.nextIdentity ≤ (library.lookup disk fqcn).2.nextIdentity := by
  rcases library.lookup_cases disk fqcn with
    ⟨found, -, result⟩ | ⟨-, -, result⟩ | ⟨n, directory, declared, -, -, -, -, result⟩
  · rw [result]
    exact Nat.le_max_left _ _
  · rw [result]
  · rw [result]
    exact Nat.le_max_left _ _

/-- Every loaded class has a number that was used up. -/
def Numbered (library : ClassLibrary) : Prop :=
  ∀ cls, library.Holds cls → cls.identity < library.nextIdentity

namespace Numbered

theorem lookup (numbered : Numbered library) (disk : Disk) (fqcn : String) :
    Numbered (library.lookup disk fqcn).2 := by
  intro cls held
  have grown := library.nextIdentity_le_lookup disk fqcn
  rcases holds_of_lookup held with old | ⟨new, used⟩
  · have before := numbered cls old
    omega
  · omega

theorem purge (numbered : Numbered library) (uri : FileUri) : Numbered (library.purge uri) :=
  fun cls held => numbered cls (holds_of_purge held)

end Numbered

/-- The class was made before, and is not loaded. -/
structure Gone (cls : LoadedClass) (library : ClassLibrary) : Prop where
  made : cls.identity < library.nextIdentity
  missing : ¬library.Holds cls

namespace Gone

theorem lookup (gone : Gone cls library) (disk : Disk) (fqcn : String) :
    Gone cls (library.lookup disk fqcn).2 := by
  have made := gone.made
  refine ⟨Nat.lt_of_lt_of_le made (library.nextIdentity_le_lookup disk fqcn), fun held => ?_⟩
  rcases holds_of_lookup held with old | ⟨new, -⟩
  · exact gone.missing old
  · omega

theorem purge (gone : Gone cls library) (uri : FileUri) : Gone cls (library.purge uri) :=
  ⟨gone.made, fun held => gone.missing (holds_of_purge held)⟩

end Gone

end ClassLibrary

end FusionAtlas
