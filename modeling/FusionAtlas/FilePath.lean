import FusionAtlas.Text.Utf8

/-!
Paths of a file system: bytes, with `/` between components. A path is kept as it was written; its
components leave out empty ones and single dots.
-/

set_option autoImplicit false
set_option relaxedAutoImplicit false

namespace FusionAtlas

/-- A path as written. -/
structure FilePath where
  bytes : List UInt8
  deriving DecidableEq, Repr, Inhabited

namespace FilePath

def separator : UInt8 := 0x2F

/-- The byte that names a directory itself, twice its parent, and starts an extension. -/
def dot : UInt8 := 0x2E

def ofString (text : String) : FilePath := ⟨Text.Utf8.encode text.toList⟩

/-- The text of a path, if its bytes are well-formed. -/
def toString? (path : FilePath) : Option String :=
  (Text.Utf8.decode? path.bytes).map String.ofList

/-- The text of a path for a message. -/
def display (path : FilePath) : String := String.ofList (Text.Utf8.decodeLossy path.bytes)

/-- A path that starts at the root. -/
def isAbsolute (path : FilePath) : Bool := path.bytes.head? == some separator

/-- Append a path: an absolute one replaces the whole, any other goes behind a separator. -/
def push (path part : FilePath) : FilePath :=
  if part.isAbsolute then part
  else if path.bytes.isEmpty || path.bytes.getLast? == some separator then
    ⟨path.bytes ++ part.bytes⟩
  else ⟨path.bytes ++ separator :: part.bytes⟩

/-- A component: a step up, or a name. -/
inductive Component where
  | parent
  | name (bytes : List UInt8)
  deriving DecidableEq, Repr

/-- The component written by the given bytes; empty bytes and a single dot are none. -/
def component? (bytes : List UInt8) : Option Component :=
  if bytes = [] ∨ bytes = [dot] then none
  else if bytes = [dot, dot] then some .parent
  else some (.name bytes)

/-- The components of a path in order. -/
def components (path : FilePath) : List Component :=
  (path.bytes.splitOn separator).filterMap component?

/-- The last component, if it is a name. -/
def fileName? (path : FilePath) : Option (List UInt8) :=
  match path.components.getLast? with
  | some (.name bytes) => some bytes
  | _ => none

/-- What follows the last dot of a name, unless the name has no other dot than a leading one. -/
def extensionOf? (name : List UInt8) : Option (List UInt8) :=
  let behind := (name.reverse.takeWhile (· != dot)).reverse
  let before := (name.reverse.dropWhile (· != dot)).drop 1
  if behind.length = name.length ∨ before = [] then none else some behind

def extension? (path : FilePath) : Option (List UInt8) := path.fileName?.bind extensionOf?

/-- An ASCII letter in either case is the same byte. -/
def lowerByte (b : UInt8) : UInt8 := if 0x41 ≤ b && b ≤ 0x5A then b + 0x20 else b

/-- The extension is one of the given ones, letters in either case. An extension that is no text
is none of them. -/
def hasExtension (path : FilePath) (extensions : List String) : Bool :=
  match path.extension? with
  | none => false
  | some found =>
    (Text.Utf8.decode? found).isSome &&
      extensions.any fun e => (Text.Utf8.encode e.toList).map lowerByte == found.map lowerByte

/-- Bytes in lexicographic order. -/
def bytesLe : List UInt8 → List UInt8 → Bool
  | [], _ => true
  | _ :: _, [] => false
  | a :: as, b :: bs => a < b || (a == b && bytesLe as bs)

/-- Steps up come before names. -/
def Component.le : Component → Component → Bool
  | .parent, _ => true
  | .name _, .parent => false
  | .name a, .name b => bytesLe a b

def componentsLe : List Component → List Component → Bool
  | [], _ => true
  | _ :: _, [] => false
  | a :: as, b :: bs => if a = b then componentsLe as bs else a.le b

def le (a b : FilePath) : Bool := componentsLe a.components b.components

end FilePath

end FusionAtlas
