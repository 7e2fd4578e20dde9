import FusionAtlas.FileUri
import FusionAtlas.Proofs.FilePath
import FusionAtlas.Proofs.UrlSegments
import Mathlib.Data.List.TakeWhile

/-!
The name of the file at a path. It is written with an escaped segment for each component, in characters
that mean nothing else in a url, so reading it as a url gives the segments back. Main statements:
`Url.parse?_fileText` and `FileUri.lastSegment?_ofPath`.
-/

set_option autoImplicit false
set_option relaxedAutoImplicit false

namespace FusionAtlas

namespace Url

/-- A character that stands for itself in a segment of a url, and ends nothing there. -/
def isPlain (c : Char) : Bool :=
  decide (0x20 < c.toNat) && decide (c.toNat < 0x80) && !escapedInPath c && !"/\\?#".toList.contains c

/-- All characters of the segment stand for themselves. -/
def PlainSegment (segment : List Char) : Prop := ∀ c ∈ segment, isPlain c = true

variable {c : Char}

theorem toNat_of_isPlain (plain : isPlain c = true) : 0x20 < c.toNat ∧ c.toNat < 0x80 := by
  simp only [isPlain, Bool.and_eq_true, decide_eq_true_eq] at plain
  exact plain.1.1

theorem ne_of_isPlain (plain : isPlain c = true) : c ≠ '/' ∧ c ≠ '\\' ∧ c ≠ '?' ∧ c ≠ '#' := by
  refine ⟨?_, ?_, ?_, ?_⟩ <;> rintro rfl <;> revert plain <;> decide

/-- Plain characters make segments of a url of any scheme. -/
theorem PlainSegment.isSegment {segment : List Char} (plain : PlainSegment segment) (cls : SchemeClass) :
    IsSegment cls segment := by
  intro c member
  have here := plain c member
  obtain ⟨slash, backslash, -, -⟩ := ne_of_isPlain here
  have kept : escapedInPath c = false := by
    simp only [isPlain, Bool.and_eq_true, Bool.not_eq_true'] at here
    exact here.1.2
  exact ⟨⟨(toNat_of_isPlain here).2, kept⟩, by simp [isSlash, slash, backslash]⟩

/-- An escaped byte is written in plain characters. -/
theorem isPlain_of_mem_encodeByte {b : UInt8}
    (member : c ∈ Text.Percent.encodeByte escapedInSegment b) : isPlain c = true := by
  have all := Text.forall_byte (p := fun b => (Text.Percent.encodeByte escapedInSegment b).all isPlain = true)
    (by decide +kernel) b
  exact List.all_eq_true.mp all c member

theorem plainSegment_encodeBytes (bytes : List UInt8) :
    PlainSegment (Text.Percent.encodeBytes escapedInSegment bytes) := by
  intro c member
  obtain ⟨b, -, written⟩ := List.mem_flatMap.mp member
  exact isPlain_of_mem_encodeByte written

variable {segments : List (List Char)}

theorem mem_segmentsText (plain : ∀ segment ∈ segments, PlainSegment segment)
    (member : c ∈ segmentsText segments) : c = '/' ∨ isPlain c = true := by
  obtain ⟨segment, listed, written⟩ := List.mem_flatMap.mp member
  rcases List.mem_cons.mp written with slash | inside
  · exact Or.inl slash
  · exact Or.inr (plain segment listed c inside)

/-- Splitting the text of segments gives them back, behind an empty one. -/
theorem splitOnP_segmentsText (plain : ∀ segment ∈ segments, PlainSegment segment) :
    (segmentsText segments).splitOnP (isSlash .file) = [] :: segments :=
  splitOnP_append_segmentsText (isSegment_nil .file) fun s member => (plain s member).isSegment .file

theorem splitTail_segmentsText (plain : ∀ segment ∈ segments, PlainSegment segment) :
    splitTail .file (segmentsText segments) = (segmentsText segments, none, none) := by
  have whole : (segmentsText segments).takeWhile (fun c => c != '?' && c != '#') =
      segmentsText segments := by
    refine List.takeWhile_eq_self_iff.mpr fun c member => ?_
    rcases mem_segmentsText plain member with rfl | inside
    · decide
    · obtain ⟨-, -, question, hash⟩ := ne_of_isPlain inside
      simp [question, hash]
  simp only [splitTail, whole, List.drop_length]

theorem fileAt_segmentsText (plain : ∀ segment ∈ segments, PlainSegment segment) :
    fileAt none (segmentsText segments) =
      ⟨"file".toList, some ⟨[], none, none⟩,
        .segments (dropEmptyStart (resolve .file .nothing ([] :: segments)).above.reverse),
        none, none⟩ := by
  simp only [fileAt, splitTail_segmentsText plain, splitOnP_segmentsText plain, ite_self]

/-- The text of a `file` url without a host. -/
def fileText (segments : List (List Char)) : List Char := "file://".toList ++ segmentsText segments

theorem fileText_eq (segments : List (List Char)) :
    fileText segments = "file".toList ++ ':' :: ("//".toList ++ segmentsText segments) := by
  have parts : "file://".toList = "file".toList ++ ':' :: "//".toList := by decide
  have joined := congrArg (fun opening => opening ++ segmentsText segments) parts
  exact joined.trans (List.append_assoc "file".toList (':' :: "//".toList) (segmentsText segments))

/-- The text of segments of plain characters is a url with these segments, dots resolved. -/
theorem parse?_fileText (nonempty : segments ≠ [])
    (plain : ∀ segment ∈ segments, PlainSegment segment) :
    parse? (fileText segments) = some (fileAt none (segmentsText segments)) := by
  have inner : ∀ c ∈ "//".toList ++ segmentsText segments, 0x20 < c.toNat := by
    refine List.forall_mem_append.mpr ⟨by decide, fun c member => ?_⟩
    rcases mem_segmentsText plain member with rfl | inside
    · decide
    · exact (toNat_of_isPlain inside).1
  have cls : schemeClass "file".toList = .file := by decide
  obtain ⟨first, rest, rfl⟩ := List.exists_cons_of_ne_nil nonempty
  rw [fileText_eq, parse?_append isScheme_file (endsInside_of_inner inner), if_pos cls]
  rfl

/-- What a byte is written as starts neither with a dot nor with an escaped one. -/
private def spellsNoDot : List Char → Bool
  | [c] => c != '.' && c != '%'
  | [c, high, low] => c == '%' && [high, low] != ['2', 'e'] && [high, low] != ['2', 'E']
  | _ => false

private theorem isDots_of_spellsNoDot {written : List Char} (other : spellsNoDot written = true)
    (n : Nat) (rest : List Char) : isDots n (written ++ rest) = false := by
  unfold spellsNoDot at other
  split at other
  · unfold isDots
    split <;> simp_all
  · unfold isDots
    split <;> simp_all
  · cases other

/-- Only dots are written so that they mean a dot segment. -/
theorem eq_replicate_of_isDots {n : Nat} {bytes : List UInt8}
    (dots : isDots n (Text.Percent.encodeBytes escapedInSegment bytes) = true) :
    bytes = List.replicate n FilePath.dot := by
  have all := Text.forall_byte (p := fun b => b = FilePath.dot ∨
    spellsNoDot (Text.Percent.encodeByte escapedInSegment b) = true) (by decide +kernel)
  induction bytes generalizing n with
  | nil =>
    cases n with
    | zero => rfl
    | succ n => cases dots
  | cons b bytes ih =>
    rw [Text.Percent.encodeBytes, List.flatMap_cons] at dots
    rcases all b with rfl | other
    · have dot : Text.Percent.encodeByte escapedInSegment FilePath.dot = ['.'] := by decide
      rw [dot, List.singleton_append] at dots
      cases n with
      | zero => cases dots
      | succ n => rw [List.replicate_succ, ih dots]
    · rw [isDots_of_spellsNoDot other] at dots
      cases dots

/-- A name is not written as dots unless it is dots. -/
theorem isUndotted_encodeBytes {name : List UInt8} (one : name ≠ [FilePath.dot])
    (two : name ≠ [FilePath.dot, FilePath.dot]) :
    IsUndotted (Text.Percent.encodeBytes escapedInSegment name) := by
  have other (n : Nat) (differs : name ≠ List.replicate n FilePath.dot) :
      isDots n (Text.Percent.encodeBytes escapedInSegment name) = false := by
    cases dots : isDots n (Text.Percent.encodeBytes escapedInSegment name) with
    | false => rfl
    | true => exact absurd (eq_replicate_of_isDots dots) differs
  exact ⟨other 1 one, other 2 two⟩

theorem not_mem_of_isDrive {text : List Char} (drive : isDrive text = true) : '.' ∉ text := by
  unfold isDrive at drive
  split at drive
  · rename_i letter mark
    simp only [Bool.and_eq_true, Bool.or_eq_true, beq_iff_eq] at drive
    intro member
    rcases List.mem_cons.mp member with rfl | member
    · exact absurd drive.1 (by decide)
    · rw [← List.mem_singleton.mp member] at drive
      exact absurd drive.2 (by decide)
  · cases drive

/-- Passing a segment that is neither dots nor a drive puts it on top. -/
theorem head?_enter (passed : Passed) {segment : List Char} (atEnd : Bool)
    (plain : PlainSegment segment) (undotted : IsUndotted segment) (drive : isDrive segment = false) :
    (passed.enter .file segment atEnd).above.head? = some segment := by
  rw [enter_of_isSegment atEnd (plain.isSegment .file) undotted fun _ => drive]
  rfl

/-- The last segment of a path is passed last. -/
theorem resolve_append (cls : SchemeClass) (passed : Passed) (front : List (List Char))
    (last : List Char) :
    ∃ before : Passed, resolve cls passed (front ++ [last]) = before.enter cls last true := by
  induction front generalizing passed with
  | nil => exact ⟨passed, rfl⟩
  | cons segment front ih => exact ih (passed.enter cls segment (front ++ [last]).isEmpty)

theorem getLast?_dropEmptyStart (segments : List (List Char)) :
    (dropEmptyStart segments).getLast? = segments.getLast? := by
  induction segments with
  | nil => rfl
  | cons segment segments ih =>
    unfold dropEmptyStart
    split
    · rename_i next rest heq
      obtain ⟨rfl, rfl⟩ := List.cons.inj heq
      rw [ih, List.getLast?_cons_cons]
    · rfl

end Url

namespace FileUri

open Url Text.Percent

variable {path : FilePath} {front : List FilePath.Component} {name : List UInt8}

theorem bytes_ne_nil (nonempty : path.components ≠ []) : path.bytes ≠ [] := by
  intro empty
  apply nonempty
  rw [FilePath.components, empty]
  rfl

/-- Only the components of a path count for its name. -/
theorem ofPath_congr {other : FilePath} (same : path.components = other.components)
    (nonempty : path.components ≠ []) : ofPath path = ofPath other := by
  rw [ofPath, ofPath, if_neg (bytes_ne_nil nonempty), if_neg (bytes_ne_nil (same ▸ nonempty)), same]

theorem plainSegment_componentText (component : FilePath.Component) :
    PlainSegment (componentText component) := by
  cases component with
  | parent =>
    have plain : "..".toList.all isPlain = true := by decide
    exact List.all_eq_true.mp plain
  | name bytes => exact plainSegment_encodeBytes bytes

/-- The name of a path with components is a `file` url with a segment for each. -/
theorem url?_ofPath (nonempty : path.components ≠ []) :
    (ofPath path).url? = some (fileAt none (segmentsText (path.components.map componentText))) := by
  have written := bytes_ne_nil nonempty
  have text : (ofPath path).text.toList = fileText (path.components.map componentText) := by
    rw [ofPath, if_neg written]
    split
    · rename_i none
      exact absurd none nonempty
    · exact String.toList_ofList
  rw [url?, text]
  refine parse?_fileText (by simpa using nonempty) fun segment member => ?_
  obtain ⟨component, -, rfl⟩ := List.mem_map.mp member
  exact plainSegment_componentText component

/-- The last segment of the name of a path is what passing the escaped file name leaves on top. -/
theorem lastSegment?_of_head? (components : path.components = front ++ [.name name]) :
    ∃ before : Passed, ∀ top,
      (before.enter .file (encodeBytes escapedInSegment name) true).above.head? = some top →
        (ofPath path).lastSegment? = some top := by
  have listed : .name name ∈ path.components := by simp [components]
  have plain : ∀ segment ∈ path.components.map componentText, PlainSegment segment := by
    intro segment member
    obtain ⟨component, -, rfl⟩ := List.mem_map.mp member
    exact plainSegment_componentText component
  obtain ⟨before, resolved⟩ := resolve_append .file .nothing ([] :: front.map componentText)
    (encodeBytes escapedInSegment name)
  refine ⟨before, fun top found => ?_⟩
  let segments : List (List Char) := dropEmptyStart (before.enter .file
    (encodeBytes escapedInSegment name) true).above.reverse
  have last : segments.getLast? = some top := by
    rw [getLast?_dropEmptyStart, List.getLast?_reverse, found]
  have url : ∃ url, (ofPath path).url? = some url ∧ url.path = .segments segments := by
    refine ⟨_, url?_ofPath (List.ne_nil_of_mem listed), ?_⟩
    rw [fileAt_segmentsText plain, components, List.map_append, List.map_singleton,
      ← List.cons_append]
    exact congrArg (fun passed => Path.segments (dropEmptyStart passed.above.reverse)) resolved
  obtain ⟨url, parsed, divided⟩ := url
  have nonempty : segments ≠ [] := by
    intro empty
    rw [empty] at last
    cases last
  rw [lastSegment?, parsed]
  simp only [segments?_of_path divided nonempty, Option.bind_some, last]

theorem isUndotted_of_component (components : path.components = front ++ [.name name]) :
    IsUndotted (encodeBytes escapedInSegment name) := by
  have listed : .name name ∈ path.components := by simp [components]
  obtain ⟨-, one, two⟩ := FilePath.name_of_mem_components listed
  exact isUndotted_encodeBytes one two

/-- The last segment of the name of a path is the escaped file name, unless that could be a drive. -/
theorem lastSegment?_ofPath (components : path.components = front ++ [.name name])
    (drive : isDrive (encodeBytes escapedInSegment name) = false) :
    (ofPath path).lastSegment? = some (encodeBytes escapedInSegment name) := by
  obtain ⟨before, last⟩ := lastSegment?_of_head? components
  exact last _ (head?_enter before true (plainSegment_encodeBytes name)
    (isUndotted_of_component components) drive)

/-- What follows the last dot of a file name is written behind the last dot of its uri. -/
theorem splitLast?_ofPath {stem behind : List UInt8}
    (components : path.components = front ++ [.name (stem ++ FilePath.dot :: behind)])
    (noDot : '.' ∉ encodeBytes escapedInSegment behind) :
    (ofPath path).lastSegment?.bind (splitLast? '.') =
      some (encodeBytes escapedInSegment stem, encodeBytes escapedInSegment behind) := by
  let shown : List Char := encodeBytes escapedInSegment stem
  let ending : List Char := encodeBytes escapedInSegment behind
  have written : encodeBytes escapedInSegment (stem ++ FilePath.dot :: behind) =
      shown ++ '.' :: ending := by
    have dot : encodeByte escapedInSegment FilePath.dot = ['.'] := by decide
    rw [encodeBytes, List.flatMap_append, List.flatMap_cons, dot]
    rfl
  have drive : isDrive (shown ++ '.' :: ending) = false := by
    cases drive : isDrive (shown ++ '.' :: ending) with
    | false => rfl
    | true => exact absurd (by simp) (not_mem_of_isDrive drive)
  have segment := lastSegment?_ofPath components (by rw [written]; exact drive)
  rw [written] at segment
  rw [segment, Option.bind_some, splitLast?_append shown noDot]

/-- A file whose name ends in a dot and an extension, in characters that are not escaped, has the
extension. -/
theorem hasExtension_ofPath {stem : List UInt8} {e : List Char}
    (components : path.components = front ++ [.name (stem ++ FilePath.dot :: Text.Utf8.encode e)])
    (unescaped : encodeBytes escapedInSegment (Text.Utf8.encode e) = e) (noDot : '.' ∉ e) :
    (ofPath path).hasExtension (String.ofList e) = true := by
  have split := splitLast?_ofPath components (by rw [unescaped]; exact noDot)
  rw [hasExtension, split]
  simp only [unescaped, Text.eqIgnoringAsciiCase, beq_self_eq_true]

end FileUri

end FusionAtlas
