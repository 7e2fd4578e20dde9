import FusionAtlas.HostCode.ClassDirectory

/-!
All class directories of a workspace. A name belongs to the directory with the longest namespace
that owns it.
-/

set_option autoImplicit false
set_option relaxedAutoImplicit false

namespace FusionAtlas

/-- Class directories in the order they were registered, and the identity of the next class. -/
structure ClassLibrary where
  directories : List ClassDirectory
  nextIdentity : Nat
  deriving DecidableEq, Repr, Inhabited

namespace ClassLibrary

def make (directories : List ClassDirectory) : ClassLibrary := ⟨directories, 0⟩

def nameLength (directory : ClassDirectory) : Nat := Text.byteSize directory.name.toList

/-- The later of two numbered directories that has the longer namespace. -/
def better (best : Option (Nat × ClassDirectory)) (next : Nat × ClassDirectory) :
    Option (Nat × ClassDirectory) :=
  match best with
  | none => some next
  | some old => if nameLength old.2 ≤ nameLength next.2 then some next else some old

/-- The directory with the longest namespace owning a name, with its number; of several, the one
registered last. -/
def owner? (library : ClassLibrary) (fqcn : String) : Option (Nat × ClassDirectory) :=
  ((library.directories.zipIdx.map fun entry => (entry.2, entry.1)).filter fun entry =>
    entry.2.owns fqcn).foldl better none

/-- Look a name up in one directory. -/
def lookupIn (library : ClassLibrary) (disk : Disk) (number : Nat) (fqcn : String) :
    Except ClassMiss LoadedClass × ClassLibrary :=
  match library.directories[number]? with
  | none => (.error (.outsideNamespace fqcn), library)
  | some directory =>
    match directory.lookup disk library.nextIdentity fqcn with
    | .error miss => (.error miss, library)
    | .ok (found, directory) =>
      (.ok found,
        { directories := library.directories.set number directory
          nextIdentity := max library.nextIdentity (found.identity + 1) })

/-- Look a name up in the directory it belongs to. -/
def lookup (library : ClassLibrary) (disk : Disk) (fqcn : String) :
    Option LoadedClass × ClassLibrary :=
  match library.owner? fqcn with
  | none => (none, library)
  | some (number, _) =>
    match library.lookupIn disk number fqcn with
    | (.ok found, library) => (some found, library)
    | (.error _, library) => (none, library)

/-- The names of the classes loaded from a file, in all directories. -/
def loadedFrom (library : ClassLibrary) (uri : FileUri) : List String :=
  library.directories.flatMap fun directory => directory.loadedFrom uri

/-- Forget the classes loaded from a file, in all directories. -/
def purge (library : ClassLibrary) (uri : FileUri) : ClassLibrary :=
  { library with directories := library.directories.map fun directory => directory.purge uri }

/-- Forget the classes loaded from a file in one more directory. The flag tells whether any directory has
forgotten one so far. -/
def purgeNext (uri : FileUri) (state : Bool × List ClassDirectory) (directory : ClassDirectory) :
    Bool × List ClassDirectory :=
  (directory.forgets uri || state.1, state.2 ++ [directory.purge uri])

/-- Forget the classes loaded from a file in one directory after the other, and tell whether any of them
has forgotten one. -/
def purgeFile (library : ClassLibrary) (uri : FileUri) : Bool × ClassLibrary :=
  let purged := library.directories.foldl (purgeNext uri) (false, [])
  (purged.1, { library with directories := purged.2 })

def purgeIn (library : ClassLibrary) (number : Nat) (uri : FileUri) : ClassLibrary :=
  { library with
    directories := library.directories.modify number fun directory => directory.purge uri }

end ClassLibrary

end FusionAtlas
