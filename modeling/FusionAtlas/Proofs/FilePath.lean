import FusionAtlas.FilePath

/-!
The components of paths that are put together.
-/

set_option autoImplicit false
set_option relaxedAutoImplicit false

namespace FusionAtlas

namespace FilePath

/-- A name in a path is not empty, and means no directory itself. -/
theorem name_of_mem_components {path : FilePath} {name : List UInt8}
    (member : .name name ∈ path.components) : name ≠ [] ∧ name ≠ [dot] ∧ name ≠ [dot, dot] := by
  obtain ⟨bytes, -, written⟩ := List.mem_filterMap.mp member
  unfold component? at written
  split at written
  · cases written
  · rename_i empty
    split at written
    · cases written
    · rename_i parent
      cases written
      rw [not_or] at empty
      exact ⟨empty.1, empty.2, parent⟩

theorem components_append_separator (front behind : List UInt8) :
    components ⟨front ++ separator :: behind⟩ = components ⟨front⟩ ++ components ⟨behind⟩ := by
  simp only [components, List.splitOn_append_cons_self, List.filterMap_append]

/-- Names that lie below a directory stand behind it in a path. -/
theorem components_push {path part : FilePath} (absolute : path.isAbsolute = true)
    (relative : part.isAbsolute = false) :
    (path.push part).components = path.components ++ part.components := by
  unfold push
  rw [relative, if_neg (by decide)]
  split
  · rename_i open_end
    have nonempty : path.bytes ≠ [] := by
      intro empty
      rw [isAbsolute, empty] at absolute
      exact absurd absolute (by decide)
    have last : path.bytes.getLast? = some separator := by
      rw [List.isEmpty_eq_false_iff.mpr nonempty, Bool.false_or, beq_iff_eq] at open_end
      exact open_end
    obtain ⟨front, written⟩ := List.getLast?_eq_some_iff.mp last
    have ended : path.components = components ⟨front⟩ := by
      rw [show path = ⟨front ++ separator :: []⟩ from congrArg FilePath.mk written,
        components_append_separator]
      exact List.append_nil _
    rw [ended, written, List.append_assoc, List.singleton_append, components_append_separator]
  · exact components_append_separator path.bytes part.bytes

theorem isAbsolute_push {path part : FilePath} (absolute : path.isAbsolute = true)
    (relative : part.isAbsolute = false) : (path.push part).isAbsolute = true := by
  have first : path.bytes.head? = some separator := by simpa [isAbsolute] using absolute
  unfold push
  rw [relative, if_neg (by decide)]
  split
  · rw [isAbsolute, List.head?_append, first]
    rfl
  · rw [isAbsolute, List.head?_append, first]
    rfl

theorem suffix_push (path part : FilePath) : part.bytes <:+ (path.push part).bytes := by
  unfold push
  split
  · exact List.suffix_refl part.bytes
  · split
    · exact List.suffix_append path.bytes part.bytes
    · exact (List.suffix_cons separator part.bytes).trans (List.suffix_append path.bytes _)

/-- A part that is one name. -/
def IsName (part : FilePath) : Prop :=
  separator ∉ part.bytes ∧ part.bytes ≠ [] ∧ part.bytes ≠ [dot] ∧ part.bytes ≠ [dot, dot]

theorem isAbsolute_of_isName {part : FilePath} (name : part.IsName) : part.isAbsolute = false := by
  obtain ⟨bytes⟩ := part
  cases bytes with
  | nil => rfl
  | cons b bytes =>
    rw [isAbsolute, List.head?_cons, beq_eq_false_iff_ne]
    intro first
    rw [Option.some.inj first] at name
    exact name.1 (List.mem_cons_self ..)

theorem components_of_isName {part : FilePath} (name : part.IsName) :
    part.components = [.name part.bytes] := by
  obtain ⟨single, nonempty, dot, dots⟩ := name
  rw [components, List.splitOn_eq_singleton single, List.filterMap_cons, component?,
    if_neg (not_or.mpr ⟨nonempty, dot⟩), if_neg dots]
  rfl

/-- Parts that are names are appended as components. -/
theorem components_foldl_push {path : FilePath} (absolute : path.isAbsolute = true)
    {parts : List FilePath} (names : ∀ part ∈ parts, part.IsName) :
    (parts.foldl push path).components =
        path.components ++ parts.map (fun part => .name part.bytes) ∧
      (parts.foldl push path).isAbsolute = true := by
  induction parts generalizing path with
  | nil => exact ⟨(List.append_nil _).symm, absolute⟩
  | cons part parts ih =>
    have name := names part (List.mem_cons_self ..)
    have relative := isAbsolute_of_isName name
    obtain ⟨appended, still⟩ := ih (isAbsolute_push absolute relative)
      fun other member => names other (List.mem_cons_of_mem part member)
    rw [List.foldl_cons, appended, components_push absolute relative, components_of_isName name,
      List.map_cons, List.append_assoc, List.singleton_append]
    exact ⟨rfl, still⟩

/-- What a path ends in belongs to its last component, unless it reaches over a separator. -/
theorem components_of_ending {path : FilePath} {ending : List UInt8} (behind : ending <:+ path.bytes)
    (single : separator ∉ ending) :
    ∃ front stem, path.components = front ++ (component? (stem ++ ending)).toList ∧
      (path.bytes = stem ++ ending ∨ separator :: (stem ++ ending) <:+ path.bytes) := by
  obtain ⟨before, bytes⟩ := behind
  have last (stem : List UInt8) (inside : separator ∉ stem) :
      components ⟨stem ++ ending⟩ = (component? (stem ++ ending)).toList := by
    have whole : separator ∉ stem ++ ending := by
      rw [List.mem_append, not_or]
      exact ⟨inside, single⟩
    rw [components, List.splitOn_eq_singleton whole]
    cases written : component? (stem ++ ending) with
    | none => exact List.filterMap_cons_none written
    | some component => exact List.filterMap_cons_some written
  by_cases divided : separator ∈ before
  · obtain ⟨stem, front, split, inside⟩ :=
      List.eq_append_cons_of_mem (List.mem_reverse.mpr divided)
    have split : before = front.reverse ++ separator :: stem.reverse := by
      have turned := congrArg List.reverse split
      simpa using turned
    have inside : separator ∉ stem.reverse := by simpa using inside
    have whole : path.bytes = front.reverse ++ separator :: (stem.reverse ++ ending) := by
      rw [← bytes, split, List.append_assoc, List.cons_append]
    refine ⟨components ⟨front.reverse⟩, stem.reverse, ?_, Or.inr ?_⟩
    · rw [show path = ⟨front.reverse ++ separator :: (stem.reverse ++ ending)⟩ from
        congrArg FilePath.mk whole, components_append_separator, last _ inside]
    · rw [whole]
      exact List.suffix_append _ _
  · refine ⟨[], before, ?_, Or.inl bytes.symm⟩
    rw [show path = ⟨before ++ ending⟩ from congrArg FilePath.mk bytes.symm, last _ divided,
      List.nil_append]

/-- An ending that is not the end of dots belongs to a name. -/
theorem components_of_suffix {path : FilePath} {ending : List UInt8} (behind : ending <:+ path.bytes)
    (single : separator ∉ ending) {b : UInt8} (last : [b] <:+ ending) (other : b ≠ dot) :
    ∃ front stem, path.components = front ++ [.name (stem ++ ending)] := by
  obtain ⟨front, stem, components, -⟩ := components_of_ending behind single
  obtain ⟨start, rfl⟩ := last
  have ends (dots : List UInt8) (same : stem ++ (start ++ [b]) = dots) : dots.getLast? = some b := by
    rw [← same, ← List.append_assoc, List.getLast?_concat]
  have name : component? (stem ++ (start ++ [b])) = some (.name (stem ++ (start ++ [b]))) := by
    rw [component?, if_neg, if_neg]
    · intro two
      exact other (Option.some.inj (ends _ two)).symm
    · rintro (none | one)
      · simp at none
      · exact other (Option.some.inj (ends _ one)).symm
  exact ⟨front, stem, by rw [components, name]; rfl⟩

/-- So does a dot at the end, if the path ends in a name at all and not in a component of its own. -/
theorem components_of_dot {path : FilePath} {name : List UInt8} (behind : [dot] <:+ path.bytes)
    (apart : ¬[separator, dot] <:+ path.bytes)
    (last : path.components.getLast? = some (.name name)) :
    ∃ front stem, path.components = front ++ [.name (stem ++ [dot])] := by
  obtain ⟨front, stem, components, place⟩ := components_of_ending behind (by decide)
  by_cases single : stem = []
  · subst single
    rcases place with whole | divided
    · have none : path.components = [] := by
        rw [show path = ⟨[dot]⟩ from congrArg FilePath.mk whole]
        decide
      rw [none] at last
      cases last
    · exact absurd divided apart
  · by_cases parent : stem = [dot]
    · have up : component? [dot, dot] = some .parent := by decide
      rw [components, parent, List.singleton_append, up, Option.toList_some,
        List.getLast?_concat] at last
      cases last
    · refine ⟨front, stem, ?_⟩
      have written : component? (stem ++ [dot]) = some (.name (stem ++ [dot])) := by
        rw [component?, if_neg, if_neg]
        · intro two
          have same : stem ++ [dot] = [dot] ++ [dot] := two
          exact parent (List.append_cancel_right same)
        · rintro (none | one)
          · simp at none
          · have same : stem ++ [dot] = [] ++ [dot] := one
            exact single (List.append_cancel_right same)
      rw [components, written]
      rfl

end FilePath

end FusionAtlas
