import FusionAtlas.TemplateFile

/-!
What is wrong with a file: its syntax errors, and calls of methods with too few or too many
arguments.
-/

set_option autoImplicit false
set_option relaxedAutoImplicit false

namespace FusionAtlas

/-- How bad a diagnostic is. -/
inductive Severity where
  | error | warning | info | hint
  deriving DecidableEq, Repr

namespace Severity

/-- The number an editor knows a severity by. -/
def number : Severity → Nat
  | error => 1
  | warning => 2
  | info => 3
  | hint => 4

end Severity

/-- Kinds of diagnostics. -/
inductive DiagnosticCode where
  | syntaxError | missingArgument | tooManyArguments
  deriving DecidableEq, Repr

namespace DiagnosticCode

/-- The text a code is known by. -/
def text : DiagnosticCode → String
  | syntaxError => "F0001"
  | missingArgument => "F0101"
  | tooManyArguments => "F0102"

/-- How bad diagnostics of a kind are. -/
def severity : DiagnosticCode → Severity
  | syntaxError | missingArgument => .error
  | tooManyArguments => .warning

end DiagnosticCode

/-- A message about a place in a file. -/
structure Diagnostic where
  uri : FileUri
  range : ByteRange
  span : Span
  severity : Severity
  code : DiagnosticCode
  message : String
  deriving DecidableEq, Repr

namespace Diagnostic

def isError (diagnostic : Diagnostic) : Bool := diagnostic.severity = .error

end Diagnostic

namespace TemplateFile

/-- A diagnostic about a place in the file. -/
def report (file : TemplateFile) (code : DiagnosticCode) (range : ByteRange) (message : String) :
    Diagnostic :=
  ⟨file.uri, range, file.lines.span range, code.severity, code, message⟩

def syntaxDiagnostics (file : TemplateFile) : List Diagnostic :=
  file.errors.toList.map fun error => file.report .syntaxError error.range error.fault.message

/-- The message once for each of some parameters that needs an argument and is given none, up to the first
parameter that needs none. `index` parameters stand before these. -/
def missingFrom (message : Diagnostic) (given : Nat) : Nat → List Parameter → List Diagnostic
  | _, [] => []
  | index, parameter :: more =>
    if parameter.isOptional then []
    else (if given ≤ index then [message] else []) ++ missingFrom message given (index + 1) more

/-- A diagnostic for each argument that is more than the parameters take. -/
def surplus (file : TemplateFile) (method : MethodDeclaration) (arguments : List NodeId) :
    List Diagnostic :=
  if method.parameters.length < arguments.length ∧ !method.isVariadic then
    (arguments.drop method.parameters.length).map fun argument =>
      file.report .tooManyArguments (file.tree.range argument) "Too many arguments provided"
  else []

/-- One diagnostic for each argument that is missing, at the name of the method, or is more than the
parameters take. -/
def argumentDiagnostics (file : TemplateFile) (range : ByteRange) (method : MethodDeclaration)
    (arguments : List NodeId) : List Diagnostic :=
  missingFrom (file.report .missingArgument range "Missing argument") arguments.length 0
      method.parameters ++
    file.surplus method arguments

/-- The diagnostics of one entry, if it is the call of a method. -/
def entryDiagnostics (file : TemplateFile) (entry : Entry) : List Diagnostic :=
  match entry.content with
  | .helperMethod _ _ method segment _ =>
    match file.tree.kind? segment with
    | some (.objectFunctionPathNode _ arguments) =>
      file.argumentDiagnostics entry.range method arguments
    | _ => []
  | _ => []

/-- All diagnostics of a file: syntax errors first, then calls in the order of their entries. -/
def diagnostics (file : TemplateFile) : List Diagnostic :=
  file.syntaxDiagnostics ++ (file.withTag .helperMethod).flatMap file.entryDiagnostics

end TemplateFile

end FusionAtlas
