import FusionAtlas.HostCode.Declaration
import FusionAtlas.Text.Scan

/-!
Names of types in a class file, and the import statements that give them meaning.
-/

set_option autoImplicit false
set_option relaxedAutoImplicit false

namespace FusionAtlas

open FusionAtlas.Text (afterBlanks? afterOpening? isBlank trim trimStart)

/-- An imported class, and the name it is known by. -/
structure Import where
  fqcn : String
  knownAs : String
  deriving DecidableEq, Repr, Inhabited

namespace Import

/-- Most import statements read from one file. -/
def maxCount : Nat := 1000

/-- A character that ends the body of an import statement. -/
def endsBody (c : Char) : Bool := c == ';' || c == '\x7b'

/-- The body behind a keyword that imports something else than a class, if the keyword stands at the
start of the text. With nothing but blanks behind the keyword there is a body only if one of two
blanks can be left for it. -/
def bodyAfterKeyword? (keyword : String) (body : List Char) : Option (List Char) := do
  let behind ← afterOpening? keyword.toList body
  let rest ← afterBlanks? behind
  match rest with
  | _ :: _ => some rest
  | [] => if behind.length ≥ 2 then some [] else none

/-- An import statement at the start of a line: the text between `use` and the semicolon, blanks
around it left out. A body of blanks alone needs two of them. -/
def statement : Text.Pattern (List Char) := fun before text => do
  if !Text.startsLine before then none
  let behind ← afterOpening? "use".toList (trimStart text)
  let rest ← afterBlanks? behind
  let body := rest.takeWhile fun c => !endsBody c
  match rest.drop body.length with
  | ';' :: after =>
    let length := text.length - after.length
    if body.isEmpty then
      if (behind.takeWhile isBlank).length ≥ 2 then some ⟨[], length⟩ else none
    else
      let plain := ((bodyAfterKeyword? "function" body).or (bodyAfterKeyword? "const" body)).getD body
      some ⟨trim plain, length⟩
  | _ => none

/-- The import a body stands for: a path, and behind ` as ` the name it is known by, which is
otherwise the last part of the path. -/
def ofBody? (body : List Char) : Option Import :=
  let (path, knownAs) := match Text.splitFirst? " as ".toList body with
    | some (path, knownAs) => (trim path, trim knownAs)
    | none => (body, Text.afterLast '\\' body)
  let path := path.dropWhile (· == '\\')
  if path.isEmpty || knownAs.isEmpty then none else some ⟨String.ofList path, String.ofList knownAs⟩

/-- The imports of a file in order. -/
def ofSource (source : List Char) : List Import :=
  ((Text.scan statement source).take maxCount).filterMap fun hit => ofBody? hit.value

end Import

namespace ReturnType

/-- Types that are no class. -/
def primitiveKeywords : List String :=
  ["string", "int", "float", "bool", "array", "void", "mixed", "null", "callable", "iterable",
    "object", "never", "false", "true"]

/-- Types that mean the class of the object itself. -/
def selfKeywords : List String := ["self", "parent", "static"]

/-- A text in lower case, as far as ASCII goes. -/
def lower (text : List Char) : String := String.ofList (text.map Char.toLower)

/-- The class that a name without backslashes means: an import known by it, an import that ends in
it, or a class of the same namespace. -/
def shortClass (name : List Char) (namespaceName : String) (imports : List Import) : String :=
  let known := imports.find? fun found => found.knownAs.toList == name
  let ending := imports.find? fun found =>
    (Text.beforeEnding? ('\\' :: name) found.fqcn.toList).isSome
  match known.or ending with
  | some found => found.fqcn
  | none => namespaceName ++ "\\" ++ String.ofList name

/-- What the name of a single type means. -/
def ofName (name : List Char) (namespaceName : String) (imports : List Import) : ReturnType :=
  if (Text.beforeEnding? ['[', ']'] name).isSome then .primitive "array"
  else
    let name := name.takeWhile (· != '<')
    if primitiveKeywords.contains (lower name) then .primitive (lower name)
    else if selfKeywords.contains (lower name) then .unresolved
    else
      match name with
      | '\\' :: rest => .classRef (String.ofList rest)
      | _ =>
        if name.contains '\\' then .classRef (namespaceName ++ "\\" ++ String.ofList name)
        else .classRef (shortClass name namespaceName imports)

/-- What a type annotation means in a namespace: the first member of a union that is not null. -/
def parse (raw : List Char) (namespaceName : String) (imports : List Import) : ReturnType :=
  let raw := (trim raw).dropWhile (· == '?')
  let members := (raw.splitOn '|').map trim
  match members.find? fun member => !member.isEmpty && lower member != "null" with
  | some name => ofName name namespaceName imports
  | none => if lower raw = "null" then .primitive "null" else .unresolved

end ReturnType

end FusionAtlas
