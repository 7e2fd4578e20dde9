import FusionAtlas.FileUri

/-!
A value for each of some files.
-/

set_option autoImplicit false
set_option relaxedAutoImplicit false

namespace FusionAtlas

/-- Files with their values, each file once. -/
structure FileMap (α : Type) where
  entries : List (FileUri × α)
  deriving Repr

namespace FileMap

variable {α : Type}

def empty : FileMap α := ⟨[]⟩

def get? (map : FileMap α) (uri : FileUri) : Option α :=
  (map.entries.find? fun entry => entry.1 == uri).map (·.2)

def contains (map : FileMap α) (uri : FileUri) : Bool := (map.get? uri).isSome

def erase (map : FileMap α) (uri : FileUri) : FileMap α :=
  ⟨map.entries.filter fun entry => entry.1 != uri⟩

def insert (map : FileMap α) (uri : FileUri) (value : α) : FileMap α :=
  ⟨(uri, value) :: (map.erase uri).entries⟩

def size (map : FileMap α) : Nat := map.entries.length

/-- The files in the order of their names. -/
def uris (map : FileMap α) : List FileUri := (map.entries.map (·.1)).mergeSort FileUri.le

end FileMap

end FusionAtlas
