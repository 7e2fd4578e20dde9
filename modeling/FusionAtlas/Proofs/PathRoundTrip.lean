import FusionAtlas.Proofs.FileUri

/-!
A path is read back from the name of its file. Every byte of a name is either kept or escaped, and what is
escaped is decoded again, so the names of a path lose nothing on the way. Main statement:
`FileUri.toPath?_ofPath`.
-/

set_option autoImplicit false
set_option relaxedAutoImplicit false

namespace FusionAtlas

namespace FilePath

/-- The path of names below the root, each of them in the one before. -/
def ofNames (names : List (List UInt8)) : FilePath :=
  if names = [] then ⟨[separator]⟩ else ⟨names.flatMap fun name => separator :: name⟩

/-- Two absolute paths are equal if their components are; it does not matter how they are separated. -/
def Same (a b : FilePath) : Prop :=
  a.isAbsolute = true ∧ b.isAbsolute = true ∧ a.components = b.components

instance (part : FilePath) : Decidable part.IsName := inferInstanceAs (Decidable (_ ∧ _))

instance (a b : FilePath) : Decidable (Same a b) := inferInstanceAs (Decidable (_ ∧ _))

variable {names : List (List UInt8)}

theorem isAbsolute_ofNames (names : List (List UInt8)) : (ofNames names).isAbsolute = true := by
  cases names with
  | nil => rfl
  | cons name names => rfl

theorem components_ofNames (valid : ∀ name ∈ names, IsName ⟨name⟩) :
    (ofNames names).components = names.map .name := by
  -- The first name is generalized, since what is written before a separator changes from step to step.
  have behind (first : List UInt8) (rest : List (List UInt8)) (held : ∀ name ∈ rest, IsName ⟨name⟩) :
      components ⟨first ++ rest.flatMap fun name => separator :: name⟩ =
        components ⟨first⟩ ++ rest.map .name := by
    induction rest generalizing first with
    | nil => simp
    | cons name rest ih =>
      have next := ih name fun other member => held other (List.mem_cons_of_mem name member)
      have single := components_of_isName (held name (List.mem_cons_self ..))
      rw [List.flatMap_cons, List.cons_append, components_append_separator, next, single,
        List.map_cons, List.singleton_append]
  cases names with
  | nil => rfl
  | cons name names => exact behind [] (name :: names) valid

theorem ofNames_injective {others : List (List UInt8)} (valid : ∀ name ∈ names, IsName ⟨name⟩)
    (validOthers : ∀ name ∈ others, IsName ⟨name⟩)
    (same : (ofNames others).components = (ofNames names).components) : others = names := by
  rw [components_ofNames valid, components_ofNames validOthers] at same
  exact (List.map_inj_right fun _ _ equal => Component.name.inj equal).mp same

end FilePath

namespace FileUri

open Url Text.Percent

variable {path : FilePath} {names : List (List UInt8)}

/-- A separator at the end changes no component. -/
theorem same_closeDrive (absolute : path.isAbsolute = true) :
    FilePath.Same ⟨closeDrive path.bytes⟩ path := by
  have first : path.bytes.head? = some FilePath.separator := by simpa [FilePath.isAbsolute] using absolute
  have closed : FilePath.Same ⟨path.bytes ++ [FilePath.separator]⟩ path := by
    refine ⟨?_, absolute, ?_⟩
    · rw [FilePath.isAbsolute, List.head?_append, first]
      rfl
    · exact (FilePath.components_append_separator path.bytes []).trans (List.append_nil _)
  unfold closeDrive
  split
  · split
    · exact closed
    · exact ⟨absolute, absolute, rfl⟩
  · exact ⟨absolute, absolute, rfl⟩

theorem encodeBytes_ne_nil {name : List UInt8} (nonempty : name ≠ []) :
    encodeBytes escapedInSegment name ≠ [] := by
  intro empty
  have read : decode (encodeBytes escapedInSegment name) = name := decode_encodeBytes (by decide) name
  rw [empty] at read
  exact nonempty read.symm

/-- The segments of the name of a path are the names in it, escaped. -/
theorem segments?_ofPath (components : path.components = names.map .name) (nonempty : names ≠ []) :
    ∃ url, (ofPath path).url? = some url ∧ url.host? = none ∧
      url.segments? = some (names.map (encodeBytes escapedInSegment)) := by
  have kept (name : List UInt8) (member : name ∈ names) :
      name ≠ [] ∧ name ≠ [FilePath.dot] ∧ name ≠ [FilePath.dot, FilePath.dot] :=
    FilePath.name_of_mem_components (by rw [components]; exact List.mem_map_of_mem member)
  let segments := names.map (encodeBytes escapedInSegment)
  have plain : ∀ s ∈ segments, PlainSegment s := by
    intro s member
    obtain ⟨name, -, rfl⟩ := List.mem_map.mp member
    exact plainSegment_encodeBytes name
  have undotted : ∀ s ∈ segments, IsUndotted s := by
    intro s member
    obtain ⟨name, listed, rfl⟩ := List.mem_map.mp member
    exact isUndotted_encodeBytes (kept name listed).2.1 (kept name listed).2.2
  have passed : resolve .file .nothing ([] :: segments) = ⟨([] :: segments).reverse ++ [], false⟩ := by
    refine resolve_of_isSegment ?_ ?_ fun _ s member => ?_
    · exact List.forall_mem_cons.mpr ⟨isSegment_nil .file, fun s member => (plain s member).isSegment .file⟩
    · exact List.forall_mem_cons.mpr ⟨isUndotted_nil, undotted⟩
    · obtain rfl := Option.some.inj member
      rfl
  have start : dropEmptyStart ([] :: segments) = segments := by
    obtain ⟨first, rest, listed⟩ := List.exists_cons_of_ne_nil nonempty
    have written := encodeBytes_ne_nil (kept first (by simp [listed])).1
    simp only [segments, listed, List.map_cons]
    exact dropEmptyStart_cons written _
  have shown : path.components.map componentText = segments := by
    rw [components, List.map_map]
    rfl
  have listed : path.components ≠ [] := by simpa [components] using nonempty
  have url := url?_ofPath listed
  rw [shown, fileAt_segmentsText plain, passed, List.append_nil, List.reverse_reverse, start] at url
  exact ⟨_, url, rfl, segments?_of_path rfl (by simpa [segments] using nonempty)⟩

/-- A path of names is read back from the name of its file as it is written from the root. -/
theorem toPath?_of_components (absolute : path.isAbsolute = true)
    (components : path.components = names.map .name) :
    (ofPath path).toPath? = some ⟨closeDrive (FilePath.ofNames names).bytes⟩ := by
  by_cases nonempty : names = []
  · have written : path.bytes ≠ [] := by
      intro empty
      rw [FilePath.isAbsolute, empty] at absolute
      exact absurd absolute (by decide)
    subst nonempty
    rw [ofPath, if_neg written, components]
    decide
  · obtain ⟨url, parsed, host, segments⟩ := segments?_ofPath components nonempty
    have decoded : (names.map (encodeBytes escapedInSegment)).flatMap
        (fun s => FilePath.separator :: decode s) = (FilePath.ofNames names).bytes := by
      have name (bytes : List UInt8) : decode (encodeBytes escapedInSegment bytes) = bytes :=
        decode_encodeBytes (by decide) bytes
      rw [FilePath.ofNames, if_neg nonempty, List.flatMap_map]
      simp only [name]
    rw [toPath?, parsed]
    simp only [Option.bind_eq_bind, Option.bind_some, segments, host, true_or, if_true, decoded]

/-- An absolute path that is given by its names is read back from the name of its file, and no other path
has that name. A path that ends in what may be a drive is read back with a separator behind it. -/
theorem toPath?_ofPath (valid : ∀ name ∈ names, FilePath.IsName ⟨name⟩) :
    (ofPath (FilePath.ofNames names)).toPath? = some ⟨closeDrive (FilePath.ofNames names).bytes⟩ ∧
      FilePath.Same ⟨closeDrive (FilePath.ofNames names).bytes⟩ (FilePath.ofNames names) ∧
      ∀ others : List (List UInt8), (∀ name ∈ others, FilePath.IsName ⟨name⟩) →
        ofPath (FilePath.ofNames others) = ofPath (FilePath.ofNames names) → others = names := by
  have read (names : List (List UInt8)) (valid : ∀ name ∈ names, FilePath.IsName ⟨name⟩) :
      (ofPath (FilePath.ofNames names)).toPath? = some ⟨closeDrive (FilePath.ofNames names).bytes⟩ :=
    toPath?_of_components (FilePath.isAbsolute_ofNames names) (FilePath.components_ofNames valid)
  have closed (names : List (List UInt8)) :
      FilePath.Same ⟨closeDrive (FilePath.ofNames names).bytes⟩ (FilePath.ofNames names) :=
    same_closeDrive (FilePath.isAbsolute_ofNames names)
  refine ⟨read names valid, closed names, fun others validOthers same => ?_⟩
  have back := read others validOthers
  rw [same, read names valid] at back
  have bytes := Option.some.inj back
  refine FilePath.ofNames_injective valid validOthers ?_
  rw [← (closed others).2.2, ← bytes, (closed names).2.2]

/-- Percent signs, marks of a query and of a fragment, spaces, backslashes, control characters and bytes
of no character come back, and so does a name that may be a drive. -/
theorem toPath?_ofPath_escaped :
    (∀ name ∈ [[0x25, 0x34, 0x31], [0x23, 0x3F, 0x20, 0x5C], [0x07, 0xFF], [0x61, 0x62, 0x3A]],
      FilePath.IsName ⟨name⟩) ∧
      (ofPath ⟨[0x2F, 0x25, 0x34, 0x31, 0x2F, 0x23, 0x3F, 0x20, 0x5C, 0x2F, 0x07, 0xFF, 0x2F, 0x61,
          0x62, 0x3A]⟩).toPath? =
        some ⟨[0x2F, 0x25, 0x34, 0x31, 0x2F, 0x23, 0x3F, 0x20, 0x5C, 0x2F, 0x07, 0xFF, 0x2F, 0x61,
          0x62, 0x3A, 0x2F]⟩ := by
  have valid : ∀ name ∈ [[0x25, 0x34, 0x31], [0x23, 0x3F, 0x20, 0x5C], [0x07, 0xFF], [0x61, 0x62, 0x3A]],
      FilePath.IsName ⟨name⟩ := by decide
  exact ⟨valid, (toPath?_ofPath valid).1⟩

end FileUri

end FusionAtlas
