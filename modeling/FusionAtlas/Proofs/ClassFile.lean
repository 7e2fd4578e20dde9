import FusionAtlas.Proofs.ClassLookup
import FusionAtlas.Proofs.DiskChange
import FusionAtlas.Proofs.FileUri
import FusionAtlas.Proofs.Text

/-!
Where the file of a class lies. If the parts of a name are names of files, the candidate of the name
lies straight below the directory, and what is read there depends on that one file of the disk. Main
statements: `ClassDirectory.candidate_spec` and `ClassDirectory.file_of_read`.
-/

set_option autoImplicit false
set_option relaxedAutoImplicit false

namespace FusionAtlas

/-- A part of a full name that can be the name of a file or directory. -/
def ClassName.IsFileName (part : List Char) : Prop :=
  part ≠ [] ∧ '/' ∉ part ∧ part ≠ ['.'] ∧ part ≠ ['.', '.']

/-- A full name whose parts can be names of files and directories. -/
def ClassName.Regular (fqcn : String) : Prop :=
  ∀ part ∈ (ClassName.dropLeading fqcn.toList).splitOn '\\', ClassName.IsFileName part

namespace FilePath

theorem separator_not_mem_encode {text : List Char} (none : '/' ∉ text) :
    separator ∉ Text.Utf8.encode text := by
  intro member
  exact none (Text.Utf8.mem_of_mem_encode member (by decide))

/-- A part of a regular name is one name of a path. -/
theorem isName_ofString {part : List Char} (name : ClassName.IsFileName part) :
    (ofString (String.ofList part)).IsName := by
  obtain ⟨nonempty, slash, dot, dots⟩ := name
  rw [ofString, String.toList_ofList]
  refine ⟨separator_not_mem_encode slash, ?_, ?_, ?_⟩
  · exact fun empty => nonempty (Text.Utf8.encode_eq_nil empty)
  · exact fun single => dot (Text.Utf8.eq_replicate_of_encode (n := 1) (by decide) single)
  · exact fun double => dots (Text.Utf8.eq_replicate_of_encode (n := 2) (by decide) double)

end FilePath

namespace Disk

/-- A path that ends in a byte that is neither a separator nor a dot can name a file. -/
theorem namesDirectory_of_suffix {path : FilePath} {b : UInt8} (last : [b] <:+ path.bytes)
    (separator : b ≠ FilePath.separator) (dot : b ≠ FilePath.dot) :
    namesDirectory path = false := by
  obtain ⟨front, bytes⟩ := last
  simp [namesDirectory, ← bytes, separator, dot]

/-- No link lies on the way to the names, at them or below. -/
def LinkFree (disk : Disk) (root : List FileName) : Prop :=
  ∀ names, names <+: root ∨ root <+: names →
    ∀ target, disk.root.get? names ≠ some (.link target)

theorem LinkFree.of_files {disk : Disk} {root : List FileName}
    {entries : List (FileName × DiskEntry)}
    (here : disk.root.get? root = some (.directory entries))
    (files : ∀ entry ∈ entries, ∃ content, entry.2 = .file content) : disk.LinkFree root := by
  rintro names (before | below) target held
  · exact DiskEntry.get?_ne_link here (fun _ same => nomatch same) before held
  · obtain ⟨rest, rfl⟩ := below
    rw [DiskEntry.get?_append, here, Option.bind_some] at held
    cases rest with
    | nil => cases held
    | cons name rest =>
      obtain ⟨entry, found, reached⟩ := Option.bind_eq_some_iff.mp held
      obtain ⟨listed, search, rfl⟩ := Option.map_eq_some_iff.mp found
      obtain ⟨content, file⟩ := files listed (List.mem_of_find?_eq_some search)
      rw [file] at reached
      cases rest <;> cases reached

end Disk

namespace ClassDirectory

variable {directory : ClassDirectory} {fqcn : String} {candidate : Candidate} {root : List FileName}

/-- The parts of a name behind the namespace are parts of the name. -/
theorem subset_of_inner? {key : String} {rest : List Char}
    (inner : directory.inner? key = some rest) :
    rest.splitOn '\\' ⊆ key.toList.splitOn '\\' := by
  have opens := Text.afterOpening?_eq_some (Option.filter_eq_some_iff.mp inner).1
  rw [opens, List.append_assoc, List.singleton_append, List.splitOn_append_cons_self]
  exact List.subset_append_right _ _

theorem isFileName_append {stem : List Char} (name : ClassName.IsFileName stem) :
    ClassName.IsFileName (stem ++ ".php".toList) := by
  have size : 4 ≤ (stem ++ ".php".toList).length := by simp
  refine ⟨?_, ?_, ?_, ?_⟩
  · simp
  · rw [List.mem_append, not_or]
    exact ⟨name.2.1, by decide⟩
  · intro same
    rw [same] at size
    exact absurd size (by decide)
  · intro same
    rw [same] at size
    exact absurd size (by decide)

/-- The path of a candidate ends in a dot and the extension of the directory. -/
theorem suffix_extension (found : directory.candidate fqcn = .ok candidate) :
    FilePath.dot :: Text.Utf8.encode directory.extension.toList <:+ candidate.path.bytes := by
  unfold ClassDirectory.candidate at found
  simp only at found
  split at found
  · cases found
  · rename_i rest inner
    rw [← Except.ok.inj found, List.foldl_append, List.foldl_cons, List.foldl_nil]
    refine List.IsSuffix.trans ?_ (FilePath.suffix_push _ _)
    rw [FilePath.ofString, String.toList_append, String.toList_append, Text.Utf8.encode_append,
      Text.Utf8.encode_append]
    have dot : Text.Utf8.encode ".".toList = [FilePath.dot] := by decide
    rw [dot, List.append_assoc, List.singleton_append]
    exact List.suffix_append _ _

/-- The path of a candidate is put together from parts of the name, the last with the extension. -/
theorem candidate_path (extension : directory.extension = "php")
    (found : directory.candidate fqcn = .ok candidate) :
    ∃ folders last,
      folders ++ [last] ⊆ (ClassName.dropLeading fqcn.toList).splitOn '\\' ∧
      candidate.path = ((folders ++ [last ++ ".php".toList]).map fun part =>
        FilePath.ofString (String.ofList part)).foldl FilePath.push directory.path := by
  unfold ClassDirectory.candidate at found
  cases inner : directory.inner? (keyOf fqcn) with
  | none =>
    simp only [inner] at found
    cases found
  | some rest =>
    obtain ⟨folders, last, parts⟩ : ∃ folders last, rest.splitOn '\\' = folders ++ [last] :=
      ⟨_, _, (List.dropLast_concat_getLast (List.splitOn_ne_nil '\\' rest)).symm⟩
    have file : String.ofList last ++ "." ++ "php" = String.ofList (last ++ ".php".toList) := by
      rw [String.append_assoc, String.ofList_append]
      rfl
    refine ⟨folders, last, ?_, ?_⟩
    · have listed := subset_of_inner? inner
      rw [keyOf, String.toList_ofList, parts] at listed
      exact listed
    · simp only [inner, parts, List.dropLast_concat, List.getLast?_concat, Option.getD_some,
        extension, file] at found
      rw [← Except.ok.inj found]
      simp only [List.map_append, List.map_singleton, List.foldl_append, List.foldl_map,
        List.foldl_cons, List.foldl_nil]

/-- A directory of classes with the usual extension, at an absolute path without steps up. -/
structure IsPlain (directory : ClassDirectory) (root : List FileName) : Prop where
  extension : directory.extension = "php"
  absolute : directory.path.isAbsolute = true
  straight : directory.path.components = root.map .name

/-- A path that leads straight to a class file below a directory. -/
structure IsClassPath (root : List FileName) (path : FilePath) (names : List FileName) : Prop where
  components : path.components = names.map .name
  nonempty : names ≠ []
  below : root <+: names
  absolute : path.isAbsolute = true
  namesFile : Disk.namesDirectory path = false
  extension : (FileUri.ofPath path).hasExtension "php" = true

/-- The name of the file of a class. -/
def fileName (last : List Char) : FileName :=
  Text.Utf8.encode last ++ FilePath.dot :: Text.Utf8.encode "php".toList

private theorem bytes_fileName (last : List Char) :
    (FilePath.ofString (String.ofList (last ++ ".php".toList))).bytes = fileName last := by
  rw [FilePath.ofString, String.toList_ofList, Text.Utf8.encode_append]
  rfl

/-- The candidate of a regular name is reached by names alone, the last of them a file name. -/
theorem candidate_components (plain : directory.IsPlain root) (regular : ClassName.Regular fqcn)
    (found : directory.candidate fqcn = .ok candidate) :
    candidate.path.isAbsolute = true ∧
      ∃ stem last, candidate.path.components = (root ++ stem ++ [fileName last]).map .name := by
  obtain ⟨folders, last, listed, path⟩ := candidate_path plain.extension found
  let names : List FilePath := (folders ++ [last ++ ".php".toList]).map fun part =>
    .ofString (String.ofList part)
  have isNames : ∀ part ∈ names, part.IsName := by
    intro part member
    obtain ⟨written, among, rfl⟩ := List.mem_map.mp member
    refine FilePath.isName_ofString ?_
    rcases List.mem_append.mp among with folder | single
    · exact regular written (listed (List.mem_append_left _ folder))
    · rw [List.mem_singleton.mp single]
      exact isFileName_append (regular last (listed (by simp)))
  obtain ⟨components, absolute⟩ := FilePath.components_foldl_push plain.absolute isNames
  have written : names.map (fun part => FilePath.Component.name part.bytes) =
      (folders.map Text.Utf8.encode ++ [fileName last]).map .name := by
    simp only [names, List.map_append, List.map_map, List.map_singleton, bytes_fileName]
    congr 1
    refine List.map_congr_left fun part _ => ?_
    simp [FilePath.ofString]
  refine ⟨path ▸ absolute, folders.map Text.Utf8.encode, last, ?_⟩
  rw [path, components, plain.straight, written, List.append_assoc]
  exact List.map_append.symm

/-- The candidate of a regular name lies straight below the directory. -/
theorem candidate_spec (plain : directory.IsPlain root) (regular : ClassName.Regular fqcn)
    (found : directory.candidate fqcn = .ok candidate) :
    ∃ names, IsClassPath root candidate.path names := by
  obtain ⟨absolute, stem, last, straight⟩ := candidate_components plain regular found
  have ending := suffix_extension found
  rw [plain.extension] at ending
  have php : [0x70] <:+ FilePath.dot :: Text.Utf8.encode "php".toList := by decide
  have namesFile := Disk.namesDirectory_of_suffix (php.trans ending) (by decide) (by decide)
  have below : root <+: root ++ stem ++ [fileName last] := by
    rw [List.append_assoc]
    exact List.prefix_append root _
  refine ⟨_, straight, by simp, below, absolute, namesFile, ?_⟩
  rw [List.map_append, List.map_singleton] at straight
  have named := FileUri.hasExtension_ofPath straight (by decide) (by decide)
  rwa [String.ofList_toList] at named

namespace IsClassPath

variable {path : FilePath} {names : List FileName} {disk after : Disk} {content : List UInt8}
  (place : IsClassPath root path names)

include place

theorem direct (free : disk.LinkFree root) : disk.Direct path names := by
  refine ⟨place.components, fun front before => free front ?_⟩
  exact List.prefix_or_prefix_of_prefix before place.below

/-- Only the content of the file counts for whether and how it is read. -/
theorem readText_congr (free : disk.LinkFree root) (still : after.LinkFree root)
    (held : disk.root.get? names = some (.file content))
    (kept : after.root.get? names = some (.file content)) :
    after.isFile path = true ∧ after.readText path = disk.readText path := by
  have here := place.direct free
  have there := place.direct still
  refine ⟨there.isFile_of_file place.nonempty place.absolute place.namesFile kept, ?_⟩
  rw [Disk.readText, Disk.readText, here.read_of_file place.absolute place.namesFile held,
    there.read_of_file place.absolute place.namesFile kept]

end IsClassPath

variable {disk after : Disk} {declared : ClassDeclaration}

/-- A class that is read comes from a file straight below the directory, whose name has the extension
of classes. -/
theorem file_of_read (plain : directory.IsPlain root) (free : disk.LinkFree root)
    (regular : ClassName.Regular fqcn) (found : directory.read disk fqcn = .ok declared) :
    ∃ path names content, IsClassPath root path names ∧ declared.uri = .ofPath path ∧
      disk.root.get? names = some (.file content) ∧
      ∀ after : Disk, after.LinkFree root → after.root.get? names = some (.file content) →
        directory.read after fqcn = .ok declared := by
  obtain ⟨candidate, text, placed, isFile, content, -, uri⟩ := read_eq_ok found
  obtain ⟨names, place⟩ := candidate_spec plain regular placed
  obtain ⟨bytes, held⟩ := (place.direct free).get?_of_isFile isFile
  refine ⟨candidate.path, names, bytes, place, uri, held, fun after still kept => ?_⟩
  obtain ⟨stays, same⟩ := place.readText_congr free still held kept
  rw [← found, read, read, placed]
  simp only [bind, Except.bind, isFile, stays, same]

end ClassDirectory

end FusionAtlas
