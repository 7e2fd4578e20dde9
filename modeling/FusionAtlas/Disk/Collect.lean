import FusionAtlas.Disk
import FusionAtlas.Text.Basic

/-!
Files below a directory. Hidden directories are left out, and links to directories are not
followed, so a cycle of links ends nowhere; links to files are files.
-/

set_option autoImplicit false
set_option relaxedAutoImplicit false

namespace FusionAtlas

namespace FilePath

def fileNameText? (path : FilePath) : Option (List Char) :=
  path.fileName?.bind Text.Utf8.decode?

/-- The file name looks like one of a settings file, such as `Settings.Fusion.yaml`. -/
def isSettingsFile (path : FilePath) : Bool :=
  match path.fileNameText? with
  | some name =>
    (Text.afterOpening? "Settings".toList name).isSome && path.hasExtension ["yaml", "yml"]
  | none => false

def isHidden (name : FileName) : Bool :=
  match Text.Utf8.decode? name with
  | some text => text.head? == some '.'
  | none => false

end FilePath

namespace Disk

mutual
/-- The files at and below an entry of a directory, by their paths. -/
def filesOfEntry (disk : Disk) (extensions : List String) (directory : FilePath) :
    FileName × DiskEntry → List FilePath
  | (name, .directory entries) =>
    if FilePath.isHidden name then []
    else filesOfEntries disk extensions (directory.push ⟨name⟩) entries
  | (name, .file _) =>
    let path := directory.push ⟨name⟩
    if path.hasExtension extensions then [path] else []
  | (name, .link _) =>
    let path := directory.push ⟨name⟩
    if path.hasExtension extensions && disk.isFile path then [path] else []

/-- The files at and below the entries of a directory. -/
def filesOfEntries (disk : Disk) (extensions : List String) (directory : FilePath) :
    List (FileName × DiskEntry) → List FilePath
  | [] => []
  | entry :: more =>
    filesOfEntry disk extensions directory entry ++ filesOfEntries disk extensions directory more
end

/-- The files below a directory that have one of the extensions, in the order of their paths. -/
def collect (disk : Disk) (directory : FilePath) (extensions : List String) :
    Except DiskFault (List FilePath) := do
  let entries ← disk.readDirectory directory
  return (filesOfEntries disk extensions directory entries).mergeSort FilePath.le

end Disk

end FusionAtlas
