import FusionAtlas.HostCode.DocBlock
import FusionAtlas.HostCode.ParameterList
import FusionAtlas.HostCode.TypeName
import FusionAtlas.Text.LineIndex
import FusionAtlas.Text.Quoted

/-!
Reading a class from the text of its file. The text is not parsed as a whole: the namespace, the
class, the imports and the signatures of public methods are found by their shape, and text of any
other shape is passed over.
-/

set_option autoImplicit false
set_option relaxedAutoImplicit false

namespace FusionAtlas

open FusionAtlas.Text (afterBlanks? afterOpening? isBlank isWord takeRun? trimStart)

/-- Why no class was found by a name. -/
inductive ClassMiss where
  | outsideNamespace (fqcn : String)
  | fileMissing (path : FilePath)
  | unreadable (path : FilePath) (reason : String)
  | namespaceMismatch (expected : String) (found : Option String)
  | classMismatch (shortName : String)
  deriving DecidableEq, Repr

namespace ClassMiss

/-- A namespace as a message shows it. -/
def foundText : Option String → String
  | some name => "Some(" ++ String.ofList (Text.quoted name.toList) ++ ")"
  | none => "None"

/-- The wording of a miss. -/
def message : ClassMiss → String
  | outsideNamespace fqcn => fqcn ++ " lies outside the namespace"
  | fileMissing path => "no class file at " ++ path.display
  | unreadable path reason => "cannot read " ++ path.display ++ ": " ++ reason
  | namespaceMismatch expected found =>
    "expected namespace " ++ expected ++ ", found " ++ foundText found
  | classMismatch shortName => "class " ++ shortName ++ " is not declared"

end ClassMiss

/-- The text of a class file. -/
structure ClassSource where
  text : List Char
  deriving DecidableEq, Repr, Inhabited

namespace ClassSource

/-- A character of a namespace in its declaration. -/
def isNamespaceChar (c : Char) : Bool := !(c == ';' || c == '\x7b' || isBlank c)

/-- A namespace declaration at the start of a line. -/
def namespacePattern : Text.Pattern (List Char) := fun before text => do
  if !Text.startsLine before then none
  let rest ← afterBlanks? (← afterOpening? "namespace".toList (trimStart text))
  let (name, behind) ← takeRun? isNamespaceChar rest
  match trimStart behind with
  | ';' :: after => some ⟨name, text.length - after.length⟩
  | _ => none

def namespace? (source : ClassSource) : Option (List Char) :=
  ((Text.scan namespacePattern source.text).head?).map (·.value)

/-- The word `class` on its own, and a name behind it. -/
def classPattern : Text.Pattern (List Char) := fun before text => do
  if before.any isWord then none
  let rest ← afterBlanks? (← afterOpening? "class".toList text)
  let (name, after) ← takeRun? isWord rest
  some ⟨name, text.length - after.length⟩

/-- Place of the first class of this name. -/
def classRange? (source : ClassSource) (name : List Char) : Option ByteRange :=
  ((Text.scan classPattern source.text).find? fun hit => hit.value == name).map fun hit =>
    ⟨hit.start, hit.stop⟩

/-- The parts of a method's signature. -/
structure Signature where
  name : List Char
  isStatic : Bool
  parameters : List Char
  returnType : Option (List Char)
  deriving DecidableEq, Repr, Inhabited

/-- What follows a word and at least one blank. -/
def afterWord? (word : String) (text : List Char) : Option (List Char) :=
  (afterOpening? word.toList text).bind afterBlanks?

def isFlat (c : Char) : Bool := c != '(' && c != ')'

/-- The text up to a closing parenthesis, with pairs of parentheses in it that hold no others. The
flag tells whether such a pair is open. -/
def takeEnclosed? (inPair : Bool) : List Char → Option (List Char × List Char)
  | [] => none
  | c :: rest =>
    if isFlat c then (takeEnclosed? inPair rest).map fun found => (c :: found.1, found.2)
    else if c = '(' then
      if inPair then none
      else (takeEnclosed? true rest).map fun found => (c :: found.1, found.2)
    else if inPair then (takeEnclosed? false rest).map fun found => (c :: found.1, found.2)
    else some ([], rest)

/-- A character of a return type. -/
def isReturnTypeChar (c : Char) : Bool := c == '\\' || c == '|' || isWord c

def takeReturnType? (text : List Char) : Option (List Char × List Char) :=
  match text with
  | ':' :: rest =>
    match trimStart rest with
    | '?' :: rest => (takeRun? isReturnTypeChar rest).map fun found => ('?' :: found.1, found.2)
    | rest => takeRun? isReturnTypeChar rest
  | _ => none

/-- The signature of a public method: the word `public`, with `static` before or behind it, the word
`function`, a name, parameters in parentheses, and a return type. Without a return type the blanks
behind the parentheses belong to it. -/
def signaturePattern : Text.Pattern Signature := fun _ text => do
  let early := afterWord? "static" text
  let rest ← afterWord? "public" (early.getD text)
  let late := afterWord? "static" rest
  let rest ← afterWord? "function" (late.getD rest)
  let (name, rest) ← takeRun? isWord ((afterOpening? ['&'] rest).getD rest)
  let rest ← afterOpening? ['('] (trimStart rest)
  let (parameters, rest) ← takeEnclosed? false rest
  let returnType := takeReturnType? (trimStart rest)
  let after := (returnType.map (·.2)).getD (trimStart rest)
  some ⟨⟨name, early.isSome || late.isSome, parameters, returnType.map (·.1)⟩,
    text.length - after.length⟩

/-- Most signatures read from one file. -/
def maxMethods : Nat := 1000

/-- The method of a signature. A comment before it describes it, and a return tag there is stronger
than the return type. -/
def methodOf (source : ClassSource) (index : LineIndex) (namespaceName : String)
    (imports : List Import) (hit : Text.Located Signature) : MethodDeclaration :=
  let signature := hit.value
  let doc := ((Text.takeBytes source.text hit.start).bind DocBlock.before?).getD .empty
  let typeText := (doc.returnTag.map (·.type)).or signature.returnType
  let range : ByteRange := ⟨hit.start, hit.stop⟩
  { name := String.ofList signature.name
    propertyName := String.ofList (propertyNameOf signature.name)
    isStatic := signature.isStatic
    parameters := ParameterList.parse signature.parameters
    returnType := (typeText.map fun raw => ReturnType.parse raw namespaceName imports).getD .unresolved
    description := String.ofList doc.description
    returnDescription := (doc.returnTag.bind (·.text)).map String.ofList
    range
    span := index.span range }

/-- The public methods in order. -/
def methods (source : ClassSource) (index : LineIndex) (namespaceName : String)
    (imports : List Import) : List MethodDeclaration :=
  ((Text.scan signaturePattern source.text).take maxMethods).map
    (source.methodOf index namespaceName imports)

/-- The class of this full name, if the file declares the namespace and the class. -/
def declaration (source : ClassSource) (fqcn expected rootName : String) (uri : FileUri) :
    Except ClassMiss ClassDeclaration :=
  let declared := source.namespace?.map String.ofList
  let shortName := ClassName.shortName fqcn.toList
  if declared ≠ some expected then .error (.namespaceMismatch expected declared)
  else
    match source.classRange? shortName with
    | none => .error (.classMismatch (String.ofList shortName))
    | some range =>
      let index := LineIndex.ofChars source.text
      let imports := Import.ofSource source.text
      .ok
        { fqcn
          namespaceName := rootName
          methods := source.methods index expected imports
          uri
          range
          span := index.span range }

end ClassSource

end FusionAtlas
