import FusionAtlas.Proofs.NormalUrl
import FusionAtlas.Proofs.PathRoundTrip

/-!
Names of files and the names made of them. A url is written in normal form, so the name of what a name
says is that name again; a name that is no url is kept as it is. The name of a path is left as it is if no
parent stands in the path: paths keep their parents when they are named, and urls resolve them. Main
statement: `FileUri.ofText_text_iff`.
-/

set_option autoImplicit false
set_option relaxedAutoImplicit false

namespace FusionAtlas.FileUri

open Url Text.Percent

variable {path : FilePath} {component : FilePath.Component} {url found : Url}

theorem ofText_ofList {text : List Char} (parsed : parse? text = some url) :
    ofText (String.ofList text) = ⟨String.ofList url.text⟩ := by
  rw [ofText, String.toList_ofList, parsed]

/-- The text of a url in normal form names itself, if dots and drives do not get in the way. -/
theorem ofText_ofList_text_iff (normal : url.IsNormal) (parsed : parse? url.text = some found) :
    ofText (String.ofList url.text) = ⟨String.ofList url.text⟩ ↔ url.Settled := by
  rw [ofText_ofList parsed]
  constructor
  · intro same
    exact settled_of_text_eq normal parsed (String.ofList_inj.mp (FileUri.mk.inj same))
  · intro settled
    rw [parse?_text normal settled parsed]

section Paths

theorem isUndotted_componentText (listed : component ∈ path.components) :
    IsUndotted (componentText component) ↔ component ≠ .parent := by
  cases component with
  | parent => decide
  | name bytes =>
    obtain ⟨-, one, two⟩ := FilePath.name_of_mem_components listed
    exact iff_of_true (isUndotted_encodeBytes one two) (by simp)

theorem componentText_ne_nil (listed : component ∈ path.components) : componentText component ≠ [] := by
  cases component with
  | parent => decide
  | name bytes => exact encodeBytes_ne_nil (FilePath.name_of_mem_components listed).1

/-- The name of a path is the text of a url, and that is settled if no parent stands in the path. -/
theorem exists_url_ofPath (nonempty : path.components ≠ []) :
    ∃ url found : Url, url.IsNormal ∧ ofPath path = ⟨String.ofList url.text⟩ ∧
      parse? url.text = some found ∧ (url.Settled ↔ .parent ∉ path.components) := by
  let segments := path.components.map componentText
  have divided : segments ≠ [] := by simpa [segments] using nonempty
  have plain : ∀ s ∈ segments, IsSegment .file s := by
    intro s member
    obtain ⟨component, -, rfl⟩ := List.mem_map.mp member
    exact (plainSegment_componentText component).isSegment .file
  have start : dropEmptyStart segments = segments := by
    obtain ⟨first, others, listed⟩ := List.exists_cons_of_ne_nil nonempty
    have written := componentText_ne_nil (show first ∈ path.components by simp [listed])
    simp only [segments, listed, List.map_cons]
    exact dropEmptyStart_cons written _
  have text : Url.text ⟨"file".toList, some ⟨[], none, none⟩, .segments segments, none, none⟩ =
      fileText segments := by
    rw [text_file, fileText_eq]
    simp [hostText, tailText]
  have normal : IsNormal ⟨"file".toList, some ⟨[], none, none⟩, .segments segments, none, none⟩ := by
    refine .file (by simp) (fun s member => ⟨plain s member, fun known => absurd rfl known⟩)
      divided start ⟨by simp, by simp⟩
  have name : ofPath path = ⟨String.ofList (fileText segments)⟩ := by
    rw [ofPath, if_neg (bytes_ne_nil nonempty)]
    split
    · rename_i none
      exact absurd none nonempty
    · rfl
  refine ⟨_, fileAt none (segmentsText segments), normal, ?_, ?_, ?_⟩
  · rw [text, name]
  · have parsed := url?_ofPath nonempty
    rwa [name, url?, String.toList_ofList, ← text] at parsed
  · rw [settled_file_iff divided]
    constructor
    · rintro ⟨undotted, -⟩ listed
      exact (isUndotted_componentText listed).mp (undotted _ (List.mem_map_of_mem listed)) rfl
    · intro absent
      refine ⟨fun s member => ?_, by simp⟩
      obtain ⟨component, listed, rfl⟩ := List.mem_map.mp member
      refine (isUndotted_componentText listed).mpr ?_
      rintro rfl
      exact absent listed

theorem ofText_ofPath_iff (path : FilePath) :
    ofText (ofPath path).text = ofPath path ↔ .parent ∉ path.components := by
  by_cases nonempty : path.components = []
  · rw [nonempty]
    refine iff_of_true ?_ List.not_mem_nil
    rw [ofPath]
    split
    · decide
    · rw [nonempty]
      decide
  · obtain ⟨url, found, normal, name, parsed, settled⟩ := exists_url_ofPath nonempty
    rw [name, ← settled]
    exact ofText_ofList_text_iff normal parsed

end Paths

/-- The name that a text is given names itself, if it is no `file` url with dots behind a drive or with a
drive behind its host; the name of a path names itself if no parent stands in the path. -/
theorem ofText_text_iff (text : String) (path : FilePath) :
    (ofText (ofText text).text = ofText text ↔
      ∀ url ∈ parse? text.toList, (parse? url.text).isSome → url.Settled) ∧
      (ofText (ofPath path).text = ofPath path ↔ .parent ∉ path.components) := by
  refine ⟨?_, ofText_ofPath_iff path⟩
  cases parsed : parse? text.toList with
  | none =>
    have kept : ofText text = ⟨text⟩ := by rw [ofText, parsed]
    exact iff_of_true (by rw [kept, kept]) fun url none => nomatch none
  | some url =>
    have written : ofText text = ⟨String.ofList url.text⟩ := by rw [ofText, parsed]
    rw [written]
    cases again : parse? url.text with
    | none =>
      have kept : ofText (String.ofList url.text) = ⟨String.ofList url.text⟩ := by
        rw [ofText, String.toList_ofList, again]
      refine iff_of_true kept fun url' member read => ?_
      obtain rfl := Option.some.inj member
      rw [again] at read
      cases read
    | some found =>
      rw [ofText_ofList_text_iff (isNormal_parse? parsed) again]
      constructor
      · intro settled url' member _
        obtain rfl := Option.some.inj member
        exact settled
      · exact fun held => held url rfl (by rw [again]; rfl)

/-- A path with a parent is named with it, and what that name says is named without, so that the file has
two names. Dots behind a drive are resolved as late, and so is a drive behind a host. -/
theorem ofText_ofPath_parent :
    (FilePath.ofString "/a/../b.php").isAbsolute = true ∧
      (ofPath (.ofString "/a/../b.php")).text = "file:///a/../b.php" ∧
      ofText (ofPath (.ofString "/a/../b.php")).text = ⟨"file:///b.php"⟩ ∧
      (ofText "file:z:\n..").text = "file:///z:/.." ∧ ofText "file:///z:/.." = ⟨"file:///z:/"⟩ ∧
      (ofText "file://[::1]//C:").text = "file://[::1]/C:" ∧
      ofText "file://[::1]/C:" = ⟨"file:///C:"⟩ := by
  decide +kernel

end FusionAtlas.FileUri
