import FusionAtlas.FileUri
import FusionAtlas.HostCode.ClassName
import FusionAtlas.Text.Lowercase
import FusionAtlas.Text.Range

/-!
What templates need to know of a class: its name, the file and place of its declaration, and its
public methods.
-/

set_option autoImplicit false
set_option relaxedAutoImplicit false

namespace FusionAtlas

/-- What a method returns, as far as a call on it can be followed: nothing is known, a type that is
no class, or a class by its full name. -/
inductive ReturnType where
  | unresolved
  | primitive (keyword : String)
  | classRef (fqcn : String)
  deriving DecidableEq, Repr, Inhabited

namespace ReturnType

/-- The class, if the type is one. -/
def className? : ReturnType → Option String
  | classRef fqcn => some fqcn
  | _ => none

def isClass (type : ReturnType) : Bool := type.className?.isSome

end ReturnType

/-- A parameter of a method, its name without the dollar sign. -/
structure Parameter where
  typeHint : Option String
  spread : Bool
  name : String
  default : Option String
  deriving DecidableEq, Repr, Inhabited

namespace Parameter

def isOptional (parameter : Parameter) : Bool := parameter.default.isSome || parameter.spread

end Parameter

/-- The name a getter is called by: without `get`, the next letter in lower case. A method that is
called `get`, or not called so, keeps its name. -/
def propertyNameOf (name : List Char) : List Char :=
  match Text.afterOpening? "get".toList name with
  | some (c :: rest) => Text.lowercase c ++ rest
  | _ => name

/-- A public method. The range covers its signature. -/
structure MethodDeclaration where
  name : String
  propertyName : String
  isStatic : Bool
  parameters : List Parameter
  returnType : ReturnType
  description : String
  returnDescription : Option String
  range : ByteRange
  span : Span
  deriving DecidableEq, Repr, Inhabited

namespace MethodDeclaration

/-- A call of this identifier means the method. -/
def answersTo (method : MethodDeclaration) (identifier : String) : Bool :=
  method.name == identifier || method.propertyName == identifier

/-- The last parameter takes any number of arguments. -/
def isVariadic (method : MethodDeclaration) : Bool :=
  method.parameters.getLast?.any (·.spread)

end MethodDeclaration

/-- A class by its full name, without a leading backslash. The range covers the word `class` and
the name behind it. -/
structure ClassDeclaration where
  fqcn : String
  /-- Name of the namespace directory it was found in. -/
  namespaceName : String
  methods : List MethodDeclaration
  uri : FileUri
  range : ByteRange
  span : Span
  deriving DecidableEq, Repr, Inhabited

namespace ClassDeclaration

def shortName (declaration : ClassDeclaration) : String :=
  String.ofList (ClassName.shortName declaration.fqcn.toList)

/-- Number of the first method that answers to an identifier. -/
def methodNumber? (declaration : ClassDeclaration) (identifier : String) : Option Nat :=
  declaration.methods.findIdx? (·.answersTo identifier)

/-- The first method that answers to an identifier. -/
def method? (declaration : ClassDeclaration) (identifier : String) : Option MethodDeclaration :=
  declaration.methods.find? (·.answersTo identifier)

end ClassDeclaration

end FusionAtlas
