import FusionAtlas.Proofs.FileUri
import FusionAtlas.Proofs.Text

/-!
Extensions of files and of their uris. A file is named with an extension, and its uri has what follows
the last dot there, escaped. Main statement: `FileUri.hasExtension_iff`: the two agree exactly on
extensions that hold no dot and nothing that is escaped.
-/

set_option autoImplicit false
set_option relaxedAutoImplicit false

namespace FusionAtlas

namespace Url

variable {passed : Passed} {segments : List (List Char)}

theorem isPlain_of_isAlpha {c : Char} (alpha : c.isAlpha = true) : isPlain c = true :=
  Text.forall_ascii (p := fun c => c.isAlpha = true → isPlain c = true) (by decide +kernel)
    (Text.toNat_of_isAlpha alpha) alpha

/-- Passing plain segments leaves only plain segments. -/
theorem plainSegment_resolve (cls : SchemeClass) (above : ∀ s ∈ passed.above, PlainSegment s)
    (plain : ∀ s ∈ segments, PlainSegment s) :
    ∀ s ∈ (resolve cls passed segments).above, PlainSegment s := by
  refine forall_above_resolve (fun passed segment atEnd here before => ?_) plain above
  have held := here.isSegment cls
  refine forall_above_enter atEnd before (List.forall_mem_nil _) ?_ ?_ fun _ => ?_
  · intro letter behind _ _ parts
    rw [held.partedDrive?] at parts
    cases parts
  · exact fun letter _ _ alpha _ => List.forall_mem_cons.mpr
      ⟨isPlain_of_isAlpha alpha, List.forall_mem_singleton.mpr (by decide)⟩
  · rwa [withoutIgnored_of_inner held.inner, held.encode]

end Url

namespace Text.Percent

/-- A character stands for itself, or is written with three characters at least. -/
theorem encodeChar_cases (escapes : Char → Bool) (c : Char) :
    encodeBytes escapes (String.utf8EncodeChar c) = [c] ∨
      3 ≤ (encodeBytes escapes (String.utf8EncodeChar c)).length := by
  obtain ⟨first, rest, bytes⟩ := List.exists_cons_of_ne_nil (String.utf8EncodeChar_ne_nil (c := c))
  have long (escaped : 0x80 ≤ first.toNat ∨ escapes (Char.ofNat first.toNat) = true) :
      3 ≤ (encodeBytes escapes (String.utf8EncodeChar c)).length := by
    rw [bytes, encodeBytes, List.flatMap_cons, List.length_append, encodeByte]
    simp only [if_pos escaped, List.length_cons]
    omega
  by_cases ascii : first.toNat < 0x80
  · have held : first ∈ String.utf8EncodeChar c := by rw [bytes]; exact List.mem_cons_self ..
    obtain ⟨rfl, single⟩ := Utf8.encodeChar_of_mem_ascii held ascii
    by_cases escaped : escapes (Char.ofNat first.toNat) = true
    · exact Or.inr (long (Or.inr escaped))
    · left
      rw [single, encodeBytes, List.flatMap_singleton, encodeByte]
      exact if_neg (not_or.mpr ⟨by omega, escaped⟩)
  · exact Or.inr (long (Or.inl (by omega)))

/-- A text that does not grow by escaping stays as it is. -/
theorem encode_eq_self (escapes : Char → Bool) {text : List Char}
    (short : (encode escapes text).length ≤ text.length) : encode escapes text = text := by
  have grows (text : List Char) : text.length ≤ (encode escapes text).length := by
    induction text with
    | nil => exact Nat.le_refl 0
    | cons c text ih =>
      rw [encode, encodeBytes] at ih ⊢
      rw [Utf8.encode, List.flatMap_cons, List.flatMap_append, List.length_append, List.length_cons]
      rw [Utf8.encode] at ih
      rcases encodeChar_cases escapes c with single | long
      · rw [encodeBytes] at single
        rw [single, List.length_singleton]
        omega
      · rw [encodeBytes] at long
        omega
  induction text with
  | nil => rfl
  | cons c text ih =>
    have rest := grows text
    have parts := encode_cons escapes c text
    rw [parts, List.length_append, List.length_cons] at short
    rcases encodeChar_cases escapes c with single | long
    · rw [parts, single, List.singleton_append, ih (by rw [single, List.length_singleton] at short; omega)]
    · omega

end Text.Percent

namespace FileUri

open Url Text.Percent

variable {path : FilePath} {extension : String}

/-- The last segment of the name of a path is written in plain characters. -/
theorem plainSegment_lastSegment? {last : List Char} (found : (ofPath path).lastSegment? = some last) :
    PlainSegment last := by
  cases listed : path.components with
  | nil =>
    have empty : (ofPath path).lastSegment? = some [] := by
      rw [ofPath, listed]
      split
      · decide
      · decide
    rw [empty] at found
    obtain rfl := Option.some.inj found
    exact List.forall_mem_nil _
  | cons component components =>
    have nonempty : path.components ≠ [] := by simp [listed]
    have plain : ∀ segment ∈ path.components.map componentText, PlainSegment segment := by
      intro segment member
      obtain ⟨component, -, rfl⟩ := List.mem_map.mp member
      exact plainSegment_componentText component
    let passed := resolve .file .nothing ([] :: path.components.map componentText)
    have above : ∀ s ∈ passed.above, PlainSegment s := by
      refine plainSegment_resolve .file (List.forall_mem_nil _) fun s member => ?_
      rcases List.mem_cons.mp member with rfl | inside
      · exact List.forall_mem_nil _
      · exact plain s inside
    have parsed : (fileAt none (segmentsText (path.components.map componentText))).path =
        .segments (dropEmptyStart passed.above.reverse) := by
      rw [fileAt_segmentsText plain]
    rw [lastSegment?, url?_ofPath nonempty] at found
    by_cases empty : dropEmptyStart passed.above.reverse = []
    · rw [empty] at parsed
      simp [segments?, parsed] at found
    · simp only [segments?_of_path parsed empty, Option.bind_some, getLast?_dropEmptyStart,
        List.getLast?_reverse] at found
      exact above last (List.mem_of_head? found)

/-- A text that stands as it is behind the last dot of a uri: it holds no dot, and nothing that is
escaped there. -/
def IsExtension (extension : String) : Prop :=
  '.' ∉ extension.toList ∧ encode escapedInSegment extension.toList = extension.toList

instance (extension : String) : Decidable (IsExtension extension) :=
  inferInstanceAs (Decidable (_ ∧ _))

theorem plainSegment_of_isExtension (plain : IsExtension extension) : PlainSegment extension.toList := by
  rw [← plain.2]
  exact plainSegment_encodeBytes _

private theorem eq_of_toLower {c d : Char} (low : d.toNat < 0x41) (same : c.toLower = d) : c = d := by
  unfold Char.toLower at same
  split at same
  · rename_i upper
    exfalso
    have least : 0x41 ≤ c.val.toNat := UInt32.le_iff_toNat_le.mp upper.1
    have greatest : c.val.toNat ≤ 0x5A := UInt32.le_iff_toNat_le.mp upper.2
    have value : (c.val + 0x20).toNat = d.toNat := by rw [← same]; rfl
    have step : (0x20 : UInt32).toNat = 0x20 := rfl
    rw [UInt32.toNat_add] at value
    omega
  · exact same

/-- A name that has an extension has it behind the last dot of its last segment, letters in either
case. -/
theorem extension_of_hasExtension {uri : FileUri} (has : uri.hasExtension extension = true) :
    ∃ last stem found, uri.lastSegment? = some last ∧ Url.splitLast? '.' last = some (stem, found) ∧
      found.map Char.toLower = extension.toList.map Char.toLower := by
  unfold hasExtension at has
  split at has
  · rename_i stem found split
    obtain ⟨last, segment, divided⟩ := Option.bind_eq_some_iff.mp split
    refine ⟨last, stem, found, segment, divided, ?_⟩
    rwa [Text.eqIgnoringAsciiCase, String.toList_ofList, beq_iff_eq] at has
  · cases has

private theorem mem_of_map_toLower {found text : List Char} {c : Char} (low : c.toNat < 0x41)
    (same : found.map Char.toLower = text.map Char.toLower) (member : c ∈ text) : c ∈ found := by
  have lowered : c.toLower = c := by
    unfold Char.toLower
    rw [dif_neg]
    rintro ⟨least, -⟩
    have least : 0x41 ≤ c.toNat := UInt32.le_iff_toNat_le.mp least
    omega
  have listed : c ∈ found.map Char.toLower := by
    rw [same]
    exact List.mem_map.mpr ⟨c, member, lowered⟩
  obtain ⟨d, inside, equal⟩ := List.mem_map.mp listed
  rw [← eq_of_toLower low equal]
  exact inside

private theorem splitLast?_eq_some {mark : Char} {text before behind : List Char}
    (found : splitLast? mark text = some (before, behind)) :
    behind = Text.afterLast mark text ∧ mark ∉ behind ∧ behind ⊆ text := by
  simp only [splitLast?] at found
  split at found
  · cases found
  · cases found
    refine ⟨rfl, ?_, ?_⟩
    · intro member
      have other := List.mem_takeWhile_imp (List.mem_reverse.mp member)
      simp at other
    · intro c member
      have inside := (List.takeWhile_sublist _).mem (List.mem_reverse.mp member)
      exact List.mem_reverse.mp inside

theorem eq_dot_of_mem_encodeByte {b : UInt8} (member : '.' ∈ encodeByte escapedInSegment b) :
    b = FilePath.dot :=
  Text.forall_byte (p := fun b => '.' ∈ encodeByte escapedInSegment b → b = FilePath.dot)
    (by decide +kernel) b member

/-- The name of a file has the extension that the file is named with exactly if the extension may stand
in a uri as it is. It is enough that the file is named so if the extension holds no dot and no slash. -/
theorem hasExtension_iff (placed : '.' ∉ extension.toList → '/' ∉ extension.toList →
      ∃ front stem, path.components =
        front ++ [.name (stem ++ FilePath.dot :: Text.Utf8.encode extension.toList)]) :
    (ofPath path).hasExtension extension = true ↔ IsExtension extension := by
  constructor
  · intro has
    obtain ⟨last, stem, found, segment, divided, lowered⟩ := extension_of_hasExtension has
    obtain ⟨behind, noMark, inside⟩ := splitLast?_eq_some divided
    have noDot : '.' ∉ extension.toList :=
      fun member => noMark (mem_of_map_toLower (by decide) lowered member)
    have noSlash : '/' ∉ extension.toList := by
      intro member
      have slash := inside (mem_of_map_toLower (by decide) lowered member)
      exact (ne_of_isPlain (plainSegment_lastSegment? segment '/' slash)).1 rfl
    refine ⟨noDot, ?_⟩
    obtain ⟨front, stem, components⟩ := placed noDot noSlash
    have shown : '.' ∉ encode escapedInSegment extension.toList := by
      intro member
      obtain ⟨b, listed, spelled⟩ := List.mem_flatMap.mp member
      rw [eq_dot_of_mem_encodeByte spelled] at listed
      exact noDot (Text.Utf8.mem_of_mem_encode listed (by decide))
    have split := splitLast?_ofPath components shown
    rw [segment, Option.bind_some, divided] at split
    apply encode_eq_self
    have same : found = encode escapedInSegment extension.toList :=
      (Prod.mk.inj (Option.some.inj split)).2
    have equal := congrArg List.length lowered
    rw [List.length_map, List.length_map, same] at equal
    exact Nat.le_of_eq equal
  · rintro plain
    have noSlash : '/' ∉ extension.toList :=
      fun member => (ne_of_isPlain (plainSegment_of_isExtension plain '/' member)).1 rfl
    obtain ⟨front, stem, components⟩ := placed plain.1 noSlash
    have named := hasExtension_ofPath components plain.2 plain.1
    rwa [String.ofList_toList] at named

end FileUri

end FusionAtlas
