import FusionAtlas.Proofs.FileNames
import FusionAtlas.Proofs.UriExtension

/-!
The extension of a file, seen from its path and from its uri. Both look behind the last dot of the name, and
escaping changes no extension of letters and digits; but a dot that starts the name divides only the uri. Main
statement: `FileUri.hasExtension_eq_iff`.
-/

set_option autoImplicit false
set_option relaxedAutoImplicit false

namespace FusionAtlas

namespace Url

/-- Passing a segment that is no dots leaves it on top, or a drive in its letter. -/
theorem exists_head?_enter (passed : Passed) {segment : List Char} (atEnd : Bool) (plain : PlainSegment segment)
    (undotted : IsUndotted segment) :
    ∃ top, (passed.enter .file segment atEnd).above.head? = some top ∧ ∀ c ∈ top, c ∈ segment ∨ c = ':' := by
  have held := plain.isSegment .file
  simp only [Passed.enter, withoutIgnored_of_inner held.inner, held.encode, held.partedDrive?, ite_self,
    undotted.1, undotted.2, Bool.false_eq_true, if_false]
  split
  · refine ⟨_, rfl, fun c member => ?_⟩
    rcases List.mem_append.mp member with letter | mark
    · exact .inl (List.mem_of_mem_take letter)
    · exact .inr (List.mem_singleton.mp mark)
  · exact ⟨segment, rfl, fun c => .inl⟩

end Url

namespace Text

open FilePath (lowerByte)
open Percent (encodeByte encodeBytes)
open Url (escapedInSegment)

variable {c : Char} {b : UInt8}

theorem toNat_of_isAsciiAlphanumeric (plain : isAsciiAlphanumeric c = true) : c.toNat < 0x80 := by
  rcases (Bool.or_eq_true _ _).mp plain with letter | digit
  · exact toNat_of_isAlpha letter
  · have range := range_of_isDigit digit
    omega

/-- Letters are put in lower case alike as characters and as bytes. -/
theorem toLower_ofNat (ascii : b.toNat < 0x80) :
    (Char.ofNat b.toNat).toLower = Char.ofNat (lowerByte b).toNat :=
  forall_byte (p := fun b => b.toNat < 0x80 → (Char.ofNat b.toNat).toLower = Char.ofNat (lowerByte b).toNat)
    (by decide +kernel) b ascii

/-- A byte that is a letter or a digit is not escaped. -/
theorem encodeByte_of_lowerByte (plain : isAsciiAlphanumeric (Char.ofNat (lowerByte b).toNat) = true) :
    b.toNat < 0x80 ∧ encodeByte escapedInSegment b = [Char.ofNat b.toNat] :=
  forall_byte (p := fun b => isAsciiAlphanumeric (Char.ofNat (lowerByte b).toNat) = true →
    b.toNat < 0x80 ∧ encodeByte escapedInSegment b = [Char.ofNat b.toNat]) (by decide +kernel) b plain

theorem encodeByte_cases (escapes : Char → Bool) (b : UInt8) :
    (∃ code, encodeByte escapes b = '%' :: code) ∨
      b.toNat < 0x80 ∧ encodeByte escapes b = [Char.ofNat b.toNat] := by
  unfold encodeByte
  dsimp only
  split
  · exact .inl ⟨_, rfl⟩
  · next plain => exact .inr ⟨by omega, rfl⟩

theorem ofNat_toNat_inj {a b : UInt8} (same : Char.ofNat a.toNat = Char.ofNat b.toNat) : a = b := by
  have value := forall_byte (p := fun b => (Char.ofNat b.toNat).toNat = b.toNat) (by decide +kernel)
  have numbers := congrArg Char.toNat same
  rw [value, value] at numbers
  exact UInt8.toNat_inj.mp numbers

/-- A letter or digit is what an escaped byte starts with only if it is that byte, in either case. -/
theorem cons_eq_map_encodeByte_iff (plain : isAsciiAlphanumeric c = true) {rest more : List Char} :
    (encodeByte escapedInSegment b).map Char.toLower ++ more = c.toLower :: rest ↔
      lowerByte (UInt8.ofNat c.toNat) = lowerByte b ∧ more = rest := by
  have ascii := toNat_of_isAsciiAlphanumeric plain
  have byte : (UInt8.ofNat c.toNat).toNat = c.toNat := by
    rw [UInt8.toNat_ofNat', Nat.mod_eq_of_lt (by omega)]
  have lowered : c.toLower = Char.ofNat (lowerByte (UInt8.ofNat c.toNat)).toNat := by
    have same := toLower_ofNat (b := UInt8.ofNat c.toNat) (by omega)
    rwa [byte, Char.ofNat_toNat] at same
  constructor
  · intro starts
    rcases encodeByte_cases escapedInSegment b with ⟨code, written⟩ | ⟨small, written⟩
    · have percent : c.toLower ≠ '%' :=
        forall_ascii (p := fun c => isAsciiAlphanumeric c = true → c.toLower ≠ '%') (by decide +kernel) ascii
          plain
      rw [written, List.map_cons, List.cons_append] at starts
      exact absurd (List.cons.inj starts).1.symm percent
    · rw [written, List.map_singleton, List.singleton_append, toLower_ofNat small, lowered] at starts
      obtain ⟨same, rest⟩ := List.cons.inj starts
      exact ⟨(ofNat_toNat_inj same).symm, rest⟩
  · rintro ⟨same, rfl⟩
    have letter : isAsciiAlphanumeric c.toLower = true :=
      forall_ascii (p := fun c => isAsciiAlphanumeric c = true → isAsciiAlphanumeric c.toLower = true)
        (by decide +kernel) ascii plain
    rw [lowered, same] at letter ⊢
    obtain ⟨small, written⟩ := encodeByte_of_lowerByte letter
    rw [written, List.map_singleton, List.singleton_append, toLower_ofNat small]

/-- A text of letters and digits is spelled by escaped bytes exactly if it is spelled by the bytes, letters in
either case. -/
theorem map_toLower_encodeBytes_iff {text : List Char} (plain : ∀ c ∈ text, isAsciiAlphanumeric c = true)
    {bytes : List UInt8} :
    (encodeBytes escapedInSegment bytes).map Char.toLower = text.map Char.toLower ↔
      (Utf8.encode text).map lowerByte = bytes.map lowerByte := by
  induction bytes generalizing text with
  | nil =>
    cases text with
    | nil => exact iff_of_true rfl rfl
    | cons c text => simp [encodeBytes, Utf8.encode, String.utf8EncodeChar_ne_nil]
  | cons b bytes ih =>
    cases text with
    | nil =>
      have written : encodeByte escapedInSegment b ≠ [] := by
        rcases encodeByte_cases escapedInSegment b with ⟨code, written⟩ | ⟨-, written⟩ <;> simp [written]
      simp [encodeBytes, Utf8.encode, written]
    | cons c text =>
      obtain ⟨first, others⟩ := List.forall_mem_cons.mp plain
      have written : Utf8.encode (c :: text) = UInt8.ofNat c.toNat :: Utf8.encode text := by
        rw [Utf8.encode, List.flatMap_cons, Utf8.encodeChar_of_ascii (toNat_of_isAsciiAlphanumeric first)]
        rfl
      rw [encodeBytes, List.flatMap_cons, List.map_append, List.map_cons, cons_eq_map_encodeByte_iff first,
        ← encodeBytes, ih others, written, List.map_cons, List.map_cons, List.cons.injEq]

end Text

namespace FileUri

open FilePath (dot lowerByte)
open Text.Percent (encodeBytes)
open Text.Utf8 (decode? encode)
open Url (escapedInSegment)

variable {path : FilePath} {front : List FilePath.Component} {name stem found : List UInt8} {extension : String}

theorem not_mem_encodeBytes (absent : dot ∉ found) : '.' ∉ encodeBytes escapedInSegment found := by
  intro member
  obtain ⟨b, listed, spelled⟩ := List.mem_flatMap.mp member
  exact absent (eq_dot_of_mem_encodeByte spelled ▸ listed)

/-- What the uri has behind its last dot stands behind the last dot of the file name. -/
theorem hasExtension_ofPath_append (components : path.components = front ++ [.name (stem ++ dot :: found)])
    (last : dot ∉ found) (plain : ∀ c ∈ extension.toList, Text.isAsciiAlphanumeric c = true) :
    (ofPath path).hasExtension extension = true ↔
      (encode extension.toList).map lowerByte = found.map lowerByte := by
  rw [hasExtension, splitLast?_ofPath components (not_mem_encodeBytes last)]
  simp only [Text.eqIgnoringAsciiCase, String.toList_ofList, beq_iff_eq]
  exact Text.map_toLower_encodeBytes_iff plain

/-- Without a dot in the file name there is none in the last segment of the uri. -/
theorem hasExtension_ofPath_of_not_mem (components : path.components = front ++ [.name name])
    (absent : dot ∉ name) : (ofPath path).hasExtension extension = false := by
  obtain ⟨before, last⟩ := lastSegment?_of_head? components
  obtain ⟨top, found, inside⟩ := Url.exists_head?_enter before true (Url.plainSegment_encodeBytes name)
    (isUndotted_of_component components)
  have free : '.' ∉ top := by
    intro member
    rcases inside _ member with written | mark
    · exact not_mem_encodeBytes absent written
    · exact absurd mark (by decide)
  rw [hasExtension, last top found, Option.bind_some, Url.splitLast?_of_not_mem free]

theorem hasExtension_ofPath_iff (components : path.components = front ++ [.name name])
    (plain : ∀ c ∈ extension.toList, Text.isAsciiAlphanumeric c = true) :
    (ofPath path).hasExtension extension = true ↔
      ∃ stem found, name = stem ++ dot :: found ∧ dot ∉ found ∧
        (encode extension.toList).map lowerByte = found.map lowerByte := by
  constructor
  · intro has
    by_cases dotted : dot ∈ name
    · obtain ⟨stem, found, rfl, last⟩ := FilePath.exists_last_dot dotted
      exact ⟨stem, found, rfl, last, (hasExtension_ofPath_append components last plain).mp has⟩
    · rw [hasExtension_ofPath_of_not_mem components dotted] at has
      cases has
  · rintro ⟨stem, found, rfl, last, same⟩
    exact (hasExtension_ofPath_append components last plain).mpr same

/-- The file is named with a dot and the extension only. -/
def IsBareExtension (extension : String) (name : List UInt8) : Prop :=
  name.map lowerByte = dot :: (encode extension.toList).map lowerByte

instance (extension : String) (name : List UInt8) : Decidable (IsBareExtension extension name) :=
  inferInstanceAs (Decidable (_ = _))

theorem isBareExtension_iff (plain : ∀ c ∈ extension.toList, Text.isAsciiAlphanumeric c = true) :
    IsBareExtension extension name ↔
      ∃ found, name = dot :: found ∧ dot ∉ found ∧
        (encode extension.toList).map lowerByte = found.map lowerByte := by
  have isDot (b : UInt8) : lowerByte b = dot ↔ b = dot :=
    Text.forall_byte (p := fun b => lowerByte b = dot ↔ b = dot) (by decide +kernel) b
  have free : dot ∉ (encode extension.toList).map lowerByte := by
    intro member
    obtain ⟨b, listed, lowered⟩ := List.mem_map.mp member
    rw [(isDot b).mp lowered] at listed
    exact absurd (plain _ (Text.Utf8.mem_of_mem_encode listed (by decide))) (by decide)
  constructor
  · intro bare
    cases name with
    | nil => cases bare
    | cons b found =>
      obtain ⟨first, rest⟩ := List.cons.inj bare
      refine ⟨found, congrArg (· :: found) ((isDot b).mp first), fun member => free ?_, rest.symm⟩
      rw [← rest]
      exact List.mem_map.mpr ⟨dot, member, by decide⟩
  · rintro ⟨found, rfl, -, same⟩
    rw [IsBareExtension, same]
    rfl

/-- The path of a file and its uri agree on an extension of letters and digits unless the file is named with a
dot and the extension only: then the path has no extension, and the uri has this one. -/
theorem hasExtension_eq_iff (named : path.fileName? = some name) (text : (decode? name).isSome = true)
    (plain : ∀ c ∈ extension.toList, Text.isAsciiAlphanumeric c = true) :
    (path.hasExtension [extension] = (ofPath path).hasExtension extension ↔ ¬IsBareExtension extension name) ∧
      (IsBareExtension extension name →
        path.hasExtension [extension] = false ∧ (ofPath path).hasExtension extension = true) := by
  obtain ⟨front, components⟩ : ∃ front, path.components = front ++ [.name name] := by
    unfold FilePath.fileName? at named
    split at named
    · next bytes last =>
      obtain rfl := Option.some.inj named
      exact List.getLast?_eq_some_iff.mp last
    · cases named
  have onDisk := FilePath.hasExtension_iff_extended named text [extension]
  have inUri := hasExtension_ofPath_iff components plain
  have apart (bare : IsBareExtension extension name) :
      path.hasExtension [extension] = false ∧ (ofPath path).hasExtension extension = true := by
    obtain ⟨found, rfl, last, same⟩ := (isBareExtension_iff plain).mp bare
    refine ⟨Bool.eq_false_iff.mpr fun has => ?_, inUri.mpr ⟨[], found, rfl, last, same⟩⟩
    obtain ⟨stem, behind, whole, nonempty, -⟩ := onDisk.mp has
    obtain ⟨b, stem, rfl⟩ := List.exists_cons_of_ne_nil nonempty
    exact last (by rw [(List.cons.inj whole).2]; simp)
  refine ⟨⟨fun agree bare => ?_, fun stemmed => ?_⟩, apart⟩
  · obtain ⟨none, some⟩ := apart bare
    rw [none, some] at agree
    cases agree
  · rw [Bool.eq_iff_iff, onDisk, inUri]
    constructor
    · rintro ⟨stem, found, whole, -, last, listed, member, same⟩
      obtain rfl := List.mem_singleton.mp member
      exact ⟨stem, found, whole, last, same⟩
    · rintro ⟨stem, found, whole, last, same⟩
      refine ⟨stem, found, whole, ?_, last, extension, List.mem_singleton_self _, same⟩
      rintro rfl
      exact stemmed ((isBareExtension_iff plain).mpr ⟨found, whole, last, same⟩)

/-- A dot that is escaped in the uri divides nothing, and neither does a percent sign in the name. -/
theorem hasExtension_eq_iff_escaped :
    let path : FilePath := .ofString "/site/50%2e.ü%2Efusion.FuSion"
    let name := encode "50%2e.ü%2Efusion.FuSion".toList
    path.fileName? = some name ∧ (decode? name).isSome = true ∧
      (∀ c ∈ "fusion".toList, Text.isAsciiAlphanumeric c = true) ∧
      path.hasExtension ["fusion"] = (ofPath path).hasExtension "fusion" := by
  have named : (FilePath.ofString "/site/50%2e.ü%2Efusion.FuSion").fileName? =
      some (encode "50%2e.ü%2Efusion.FuSion".toList) := by decide +kernel
  have text : (decode? (encode "50%2e.ü%2Efusion.FuSion".toList)).isSome = true := by decide +kernel
  have plain : ∀ c ∈ "fusion".toList, Text.isAsciiAlphanumeric c = true := by decide
  exact ⟨named, text, plain, (hasExtension_eq_iff named text plain).1.mpr (by decide +kernel)⟩

/-- A file that is named `.fusion` is no template when a directory is loaded, and is one when it changes. -/
theorem hasExtension_of_hidden_file :
    let path : FilePath := .ofString "/site/.fusion"
    path.isAbsolute = true ∧ path.fileName? = some (encode ".fusion".toList) ∧
      (∀ c ∈ "fusion".toList, Text.isAsciiAlphanumeric c = true) ∧
      path.hasExtension ["fusion"] = false ∧ (ofPath path).hasExtension "fusion" = true := by
  decide +kernel

end FileUri

end FusionAtlas
