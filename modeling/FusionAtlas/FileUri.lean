import FusionAtlas.FilePath
import FusionAtlas.Url

/-!
Names of files. A name is the written form of a url, so that a path and the uri an editor sends for
it give one name; text that is no url names itself.
-/

set_option autoImplicit false
set_option relaxedAutoImplicit false

namespace FusionAtlas

/-- The name of a file. -/
structure FileUri where
  text : String
  deriving DecidableEq, Repr, Inhabited

namespace FileUri

def ofText (text : String) : FileUri :=
  match Url.parse? text.toList with
  | some url => ⟨String.ofList url.text⟩
  | none => ⟨text⟩

/-- A component of a path as it is written in a url. -/
def componentText : FilePath.Component → List Char
  | .parent => "..".toList
  | .name bytes => Text.Percent.encodeBytes Url.escapedInSegment bytes

/-- The name of the file at a path. A relative path is taken from the root; the empty path names
nothing. -/
def ofPath (path : FilePath) : FileUri :=
  if path.bytes = [] then ⟨""⟩
  else
    match path.components with
    | [] => ⟨"file:///"⟩
    | components => ⟨String.ofList ("file://".toList ++ Url.segmentsText
        (components.map componentText))⟩

/-- The url a name stands for, if it is one. -/
def url? (uri : FileUri) : Option Url := Url.parse? uri.text.toList

/-- A path that ends in a drive letter and its mark names the drive's root. -/
def closeDrive (bytes : List UInt8) : List UInt8 :=
  match bytes.reverse with
  | mark :: letter :: _ :: _ =>
    if (Char.ofNat letter.toNat).isAlpha ∧ (mark = 0x3A ∨ mark = 0x7C) then
      bytes ++ [FilePath.separator]
    else bytes
  | _ => bytes

/-- The path a name stands for: the path of a url on this host, percent-decoded. -/
def toPath? (uri : FileUri) : Option FilePath := do
  let url ← uri.url?
  let segments ← url.segments?
  if url.host? = none ∨ url.host? = some (.domain "localhost".toList) then
    some ⟨closeDrive (segments.flatMap fun s => FilePath.separator :: Text.Percent.decode s)⟩
  else none

/-- The last path segment of a name. -/
def lastSegment? (uri : FileUri) : Option (List Char) :=
  match uri.url? with
  | some url => url.segments?.bind (·.getLast?)
  | none => some (Text.afterLast '/' uri.text.toList)

/-- The name ends in a dot and the given extension, letters in either case. -/
def hasExtension (uri : FileUri) (extension : String) : Bool :=
  match uri.lastSegment?.bind (Url.splitLast? '.') with
  | some (_, found) => Text.eqIgnoringAsciiCase (String.ofList found) extension
  | none => false

/-- Names in the order of their texts. -/
def le (a b : FileUri) : Bool := !(b.text < a.text)

end FileUri

end FusionAtlas
