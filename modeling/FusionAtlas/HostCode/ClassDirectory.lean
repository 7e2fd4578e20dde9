import FusionAtlas.Disk
import FusionAtlas.HostCode.Source

/-!
The directory of a namespace. A class of the namespace has a file of its own there, found from the
parts of its name. A class once loaded is kept until its file is purged; what was not found is not
remembered.
-/

set_option autoImplicit false
set_option relaxedAutoImplicit false

namespace FusionAtlas

/-- A class that was loaded. Loading it again, even from the same text, gives another identity. -/
structure LoadedClass where
  identity : Nat
  declaration : ClassDeclaration
  deriving DecidableEq, Repr, Inhabited

/-- A namespace, the directory of its classes, and the classes loaded from there, by full name. -/
structure ClassDirectory where
  name : String
  path : FilePath
  extension : String
  classes : List (String × LoadedClass)
  deriving DecidableEq, Repr, Inhabited

namespace ClassDirectory

def defaultExtension : String := "php"

/-- The directory of a namespace; backslashes around the namespace do not count. -/
def make (name : String) (path : FilePath) : ClassDirectory :=
  let name := Text.dropEndWhile (· == '\\') (ClassName.dropLeading name.toList)
  ⟨String.ofList name, path, defaultExtension, []⟩

/-- The same directory with another extension; leading dots do not count. -/
def withExtension (directory : ClassDirectory) (extension : String) : ClassDirectory :=
  { directory with extension := String.ofList (extension.toList.dropWhile (· == '.')) }

/-- A full name without leading backslashes. -/
def keyOf (fqcn : String) : String := String.ofList (ClassName.dropLeading fqcn.toList)

/-- What follows the namespace and a backslash in a name, if that is not empty. -/
def inner? (directory : ClassDirectory) (key : String) : Option (List Char) :=
  (Text.afterOpening? (directory.name.toList ++ ['\\']) key.toList).filter fun rest => !rest.isEmpty

/-- The name lies in this namespace. -/
def owns (directory : ClassDirectory) (fqcn : String) : Bool :=
  (directory.inner? (keyOf fqcn)).isSome

/-- Where the file of a class should be, and the namespace it should declare. -/
structure Candidate where
  path : FilePath
  namespaceName : String
  deriving DecidableEq, Repr

/-- The candidate of a name: one directory for each part but the last, which names the file. -/
def candidate (directory : ClassDirectory) (fqcn : String) : Except ClassMiss Candidate :=
  let key := keyOf fqcn
  match directory.inner? key with
  | none => .error (.outsideNamespace key)
  | some rest =>
    let parts := rest.splitOn '\\'
    let folders := (parts.dropLast).map String.ofList
    let file := String.ofList (parts.getLast?.getD rest) ++ "." ++ directory.extension
    let path := (folders ++ [file]).foldl (fun path part => path.push (.ofString part)) directory.path
    let namespaceName := "\\".intercalate (directory.name :: folders)
    .ok ⟨path, namespaceName⟩

/-- The class loaded by a name. -/
def loaded? (directory : ClassDirectory) (fqcn : String) : Option LoadedClass :=
  (directory.classes.find? fun entry => entry.1 == keyOf fqcn).map (·.2)

/-- Read the class of a name from its file. -/
def read (directory : ClassDirectory) (disk : Disk) (fqcn : String) :
    Except ClassMiss ClassDeclaration := do
  let candidate ← directory.candidate fqcn
  if !disk.isFile candidate.path then throw (.fileMissing candidate.path)
  match disk.readText candidate.path with
  | .error fault => throw (.unreadable candidate.path fault.message)
  | .ok text =>
    (ClassSource.mk text.toList).declaration (keyOf fqcn) candidate.namespaceName directory.name
      (.ofPath candidate.path)

/-- The class of a name, loaded before or now. A class loaded now gets the given identity. -/
def lookup (directory : ClassDirectory) (disk : Disk) (identity : Nat) (fqcn : String) :
    Except ClassMiss (LoadedClass × ClassDirectory) :=
  match directory.loaded? fqcn with
  | some found => .ok (found, directory)
  | none =>
    (directory.read disk fqcn).map fun declaration =>
      let found : LoadedClass := ⟨identity, declaration⟩
      (found, { directory with classes := directory.classes ++ [(keyOf fqcn, found)] })

/-- A class was loaded by this name. -/
def hasLoaded (directory : ClassDirectory) (fqcn : String) : Bool := (directory.loaded? fqcn).isSome

/-- The names of the classes loaded from a file. -/
def loadedFrom (directory : ClassDirectory) (uri : FileUri) : List String :=
  (directory.classes.filter fun entry => entry.2.declaration.uri = uri).map (·.1)

/-- Forget the classes loaded from a file. -/
def purge (directory : ClassDirectory) (uri : FileUri) : ClassDirectory :=
  { directory with
    classes := directory.classes.filter fun entry => entry.2.declaration.uri ≠ uri }

/-- Fewer classes are left when those of the file are forgotten. -/
def forgets (directory : ClassDirectory) (uri : FileUri) : Bool :=
  (directory.purge uri).classes.length ≠ directory.classes.length

end ClassDirectory

end FusionAtlas
