import FusionAtlas.FilePath

/-!
The files a program sees: a tree of directories, files and symbolic links. Reading never changes it;
an operation takes the disk as it is at that moment.
-/

set_option autoImplicit false
set_option relaxedAutoImplicit false

namespace FusionAtlas

abbrev FileName := List UInt8

/-- What a directory holds under a name. -/
inductive DiskEntry where
  | file (content : List UInt8)
  | link (target : FilePath)
  | directory (entries : List (FileName × DiskEntry))
  deriving Repr, Inhabited

namespace DiskEntry

/-- The entry of a name in a list of entries. -/
def find? (entries : List (FileName × DiskEntry)) (name : FileName) : Option DiskEntry :=
  (entries.find? fun entry => entry.1 == name).map (·.2)

/-- The entry at the end of a list of names; links are not followed. -/
def get? : DiskEntry → List FileName → Option DiskEntry
  | entry, [] => some entry
  | directory entries, name :: more => (find? entries name).bind (·.get? more)
  | _, _ :: _ => none

/-- Change the entry of a name, or add it at the end. -/
def alter (name : FileName) (change : Option DiskEntry → DiskEntry) :
    List (FileName × DiskEntry) → List (FileName × DiskEntry)
  | [] => [(name, change none)]
  | entry :: more =>
    if entry.1 == name then (name, change (some entry.2)) :: more
    else entry :: alter name change more

/-- Put an entry at the end of a list of names, with new directories on the way. Where a file or
link is in the way nothing changes. -/
def put : List FileName → DiskEntry → DiskEntry → DiskEntry
  | [], _, new => new
  | name :: more, directory entries, new =>
    directory (alter name (fun old => put more (old.getD (directory [])) new) entries)
  | _ :: _, entry, _ => entry

/-- Remove the entry at the end of a list of names. -/
def remove : List FileName → DiskEntry → DiskEntry
  | [name], directory entries => directory (entries.filter fun entry => entry.1 != name)
  | name :: more, directory entries =>
    directory (entries.map fun entry =>
      if entry.1 == name then (entry.1, remove more entry.2) else entry)
  | _, entry => entry

end DiskEntry

/-- Why a file cannot be read. -/
inductive DiskFault where
  | notFound
  | notADirectory
  | isADirectory
  | tooManyLinks
  | malformedText
  deriving DecidableEq, Repr

namespace DiskFault

def message : DiskFault → String
  | notFound => "No such file or directory (os error 2)"
  | notADirectory => "Not a directory (os error 20)"
  | isADirectory => "Is a directory (os error 21)"
  | tooManyLinks => "Too many levels of symbolic links (os error 40)"
  | malformedText => "stream did not contain valid UTF-8"

end DiskFault

/-- A tree of files below the root directory. -/
structure Disk where
  root : DiskEntry
  deriving Repr, Inhabited

namespace Disk

def empty : Disk := ⟨.directory []⟩

/-- Where a path leads: to an entry, or to a name that is missing with more components behind it. -/
inductive Place where
  | reached (names : List FileName)
  | missing (names : List FileName) (ahead : List FilePath.Component)
  deriving DecidableEq, Repr

/-- Most links followed on one path. -/
def maxLinks : Nat := 40

/-- A path written so that it can only name a directory. -/
def namesDirectory (path : FilePath) : Bool :=
  match path.bytes.reverse with
  | [] => false
  | last :: before =>
    last == FilePath.separator || (last == FilePath.dot && before.head? == some FilePath.separator)

/-- Follow components from a directory up to a link, where `onLink` goes on with the target, the
directory of the link and the components behind it. If only a directory will do, they must not end at
a file. -/
def follow (disk : Disk)
    (onLink : FilePath → List FileName → List FilePath.Component → Except DiskFault Place)
    (asDirectory : Bool) : List FileName → List FilePath.Component → Except DiskFault Place
  | here, [] => .ok (.reached here)
  | here, .parent :: ahead => follow disk onLink asDirectory here.dropLast ahead
  | here, .name name :: ahead =>
    match disk.root.get? (here ++ [name]) with
    | none => .ok (.missing (here ++ [name]) ahead)
    | some (.file _) =>
      if ahead.isEmpty && !asDirectory then .ok (.reached (here ++ [name]))
      else .error .notADirectory
    | some (.directory _) => follow disk onLink asDirectory (here ++ [name]) ahead
    | some (.link target) => onLink target here ahead

/-- Follow components from a directory, through links. A link at their end whose target can only name
a directory must not lead to a file. -/
def walk (disk : Disk) :
    Nat → Bool → List FileName → List FilePath.Component → Except DiskFault Place
  | 0, asDirectory => disk.follow (fun _ _ _ => .error .tooManyLinks) asDirectory
  | links + 1, asDirectory =>
    disk.follow
      (fun target here ahead =>
        walk disk links (asDirectory || (ahead.isEmpty && namesDirectory target))
          (if target.isAbsolute then [] else here) (target.components ++ ahead))
      asDirectory

/-- The names of the entry a path leads to, and the entry. Only absolute paths lead anywhere. -/
def resolve (disk : Disk) (path : FilePath) : Except DiskFault (List FileName × DiskEntry) := do
  if !path.isAbsolute then throw .notFound
  match ← disk.walk maxLinks (namesDirectory path) [] path.components with
  | .missing _ _ => throw .notFound
  | .reached names =>
    match disk.root.get? names with
    | none => throw .notFound
    | some entry => return (names, entry)

/-- The path leads to a regular file; the root is none. -/
def isFile (disk : Disk) (path : FilePath) : Bool :=
  match disk.resolve path with
  | .ok (_ :: _, .file _) => true
  | _ => false

def isDirectory (disk : Disk) (path : FilePath) : Bool :=
  match disk.resolve path with
  | .ok (_, .directory _) => true
  | _ => false

def read (disk : Disk) (path : FilePath) : Except DiskFault (List UInt8) := do
  match ← disk.resolve path with
  | (_, .file content) => return content
  | _ => throw .isADirectory

def readText (disk : Disk) (path : FilePath) : Except DiskFault String := do
  match Text.Utf8.decode? (← disk.read path) with
  | some text => return String.ofList text
  | none => throw .malformedText

def readDirectory (disk : Disk) (path : FilePath) :
    Except DiskFault (List (FileName × DiskEntry)) := do
  match ← disk.resolve path with
  | (_, .directory entries) => return entries
  | _ => throw .notADirectory

/-- The names of components, without steps up. -/
def namesOf (components : List FilePath.Component) : List FileName :=
  components.filterMap fun
    | .name name => some name
    | .parent => none

/-- The names that a path leads to, whether or not an entry is there. -/
def destination? (disk : Disk) (path : FilePath) : Option (List FileName) :=
  match disk.walk maxLinks false [] path.components with
  | .ok (.reached names) => some names
  | .ok (.missing names ahead) => some (names ++ namesOf ahead)
  | .error _ => none

/-- The names of the entry at a path itself, which may be a link. -/
def ownNames? (disk : Disk) (path : FilePath) : Option (List FileName) := do
  let name ← path.fileName?
  match disk.walk maxLinks false [] path.components.dropLast with
  | .ok (.reached names) => some (names ++ [name])
  | .ok (.missing names ahead) => some (names ++ namesOf ahead ++ [name])
  | .error _ => none

/-- Write a file, with the directories it lies in. A directory is not overwritten. -/
def write (disk : Disk) (path : FilePath) (content : List UInt8) : Disk :=
  match disk.destination? path with
  | some names =>
    match disk.root.get? names with
    | some (.directory _) => disk
    | _ => ⟨disk.root.put names (.file content)⟩
  | none => disk

/-- Make a directory, with those it lies in. -/
def makeDirectory (disk : Disk) (path : FilePath) : Disk :=
  match disk.destination? path with
  | some names =>
    if (disk.root.get? names).isSome then disk else ⟨disk.root.put names (.directory [])⟩
  | none => disk

def makeLink (disk : Disk) (path target : FilePath) : Disk :=
  match disk.ownNames? path with
  | some names => ⟨disk.root.put names (.link target)⟩
  | none => disk

/-- Remove a file, a link, or a directory with all it holds. -/
def remove (disk : Disk) (path : FilePath) : Disk :=
  match disk.ownNames? path with
  | some names => ⟨disk.root.remove names⟩
  | none => disk

end Disk

end FusionAtlas
