import FusionAtlas.Workspace.FileMap

/-!
What a map of files answers after a change, and which files it lists.
-/

set_option autoImplicit false
set_option relaxedAutoImplicit false

namespace FusionAtlas

namespace FileMap

variable {α : Type} (map : FileMap α) (uri other : FileUri)

@[simp] theorem get?_erase :
    (map.erase uri).get? other = if other = uri then none else map.get? other := by
  simp only [get?, erase, List.find?_filter]
  split
  · subst other
    rw [List.find?_eq_none.mpr, Option.map_none]
    intro entry _
    simp
  · rename_i different
    congr 2
    funext entry
    by_cases same : entry.1 = other
    · simp [same, different]
    · simp [same]

@[simp] theorem get?_insert (value : α) :
    (map.insert uri value).get? other = if other = uri then some value else map.get? other := by
  by_cases same : other = uri
  · subst other
    simp only [get?, insert, List.find?_cons, beq_self_eq_true, Option.map_some, if_true]
  · have behind : (map.insert uri value).get? other = (map.erase uri).get? other := by
      simp only [get?, insert, List.find?_cons, beq_eq_false_iff_ne.mpr (Ne.symm same)]
    rw [behind, get?_erase, if_neg same, if_neg same]

/-- The files that are listed are those with a value. -/
theorem mem_uris : uri ∈ map.uris ↔ map.contains uri = true := by
  rw [uris, List.mem_mergeSort, contains, get?, Option.isSome_map, List.find?_isSome]
  constructor
  · intro listed
    obtain ⟨entry, member, rfl⟩ := List.mem_map.mp listed
    exact ⟨entry, member, beq_self_eq_true entry.1⟩
  · rintro ⟨entry, member, same⟩
    exact List.mem_map.mpr ⟨entry, member, eq_of_beq same⟩

/-- The files are listed in order. -/
theorem pairwise_uris : map.uris.Pairwise fun a b => a.le b = true := by
  have ordered (a b : FileUri) : a.le b = true ↔ a.text ≤ b.text := by
    rw [FileUri.le, Bool.not_eq_true', decide_eq_false_iff_not]
    exact String.not_lt
  refine List.pairwise_mergeSort (fun a b c first second => ?_) (fun a b => ?_) _
  · exact (ordered a c).mpr (String.le_trans ((ordered a b).mp first) ((ordered b c).mp second))
  · rw [Bool.or_eq_true, ordered, ordered]
    exact String.le_total a.text b.text

/-- A file without a value is not in the map. -/
theorem erase_eq_self (absent : map.get? uri = none) : map.erase uri = map := by
  rw [get?, Option.map_eq_none_iff, List.find?_eq_none] at absent
  have kept : map.entries.filter (fun entry => entry.1 != uri) = map.entries :=
    List.filter_eq_self.mpr fun entry member => by simpa using absent entry member
  rw [erase, kept]

/-- Each file stands once. -/
def Unique : Prop := (map.entries.map (·.1)).Nodup

variable {map}

theorem Unique.erase (unique : map.Unique) (uri : FileUri) : (map.erase uri).Unique :=
  (List.filter_sublist.map _).nodup unique

theorem Unique.insert (unique : map.Unique) (uri : FileUri) (value : α) :
    (map.insert uri value).Unique := by
  refine List.nodup_cons.mpr ⟨?_, unique.erase uri⟩
  intro member
  obtain ⟨entry, kept, same⟩ := List.mem_map.mp member
  simpa [same] using (List.mem_filter.mp kept).2

theorem Unique.nodup_uris (unique : map.Unique) : map.uris.Nodup :=
  (List.mergeSort_perm _ _).nodup_iff.mpr unique

end FileMap

end FusionAtlas
