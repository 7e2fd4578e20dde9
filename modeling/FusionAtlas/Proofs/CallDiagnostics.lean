import FusionAtlas.Diagnostic
import FusionAtlas.Proofs.EntryStore

/-!
What a file is reported for. Arguments that are missing and arguments that are too many are looked for
one after the other; both looks go over the same parameters, and no call is reported for both. Main
statements: `TemplateFile.missingFrom_eq` and `TemplateFile.surplus_eq` for the two looks,
`TemplateFile.reported_argumentDiagnostics` for one call and `TemplateFile.diagnostics_by_call` for a
file.
-/

set_option autoImplicit false
set_option relaxedAutoImplicit false

namespace FusionAtlas

namespace MethodDeclaration

/-- How many parameters stand before the first that has a default or takes any number of arguments. -/
def requiredCount (method : MethodDeclaration) : Nat :=
  method.parameters.findIdx fun parameter => parameter.default.isSome || parameter.spread

/-- The last parameter takes any number of arguments. -/
def Variadic (method : MethodDeclaration) : Prop :=
  ∃ front last, method.parameters = front ++ [last] ∧ last.spread = true

theorem isVariadic_iff (method : MethodDeclaration) : method.isVariadic = true ↔ method.Variadic := by
  rw [isVariadic, Option.any_eq_true]
  constructor
  · rintro ⟨last, found, spread⟩
    obtain ⟨front, parameters⟩ := List.getLast?_eq_some_iff.mp found
    exact ⟨front, last, parameters, spread⟩
  · rintro ⟨front, last, parameters, spread⟩
    exact ⟨last, by rw [parameters, List.getLast?_concat], spread⟩

theorem requiredCount_le (method : MethodDeclaration) :
    method.requiredCount ≤ method.parameters.length :=
  List.findIdx_le_length

end MethodDeclaration

namespace TemplateFile

variable {file : TemplateFile}

/-- The entry is the call of a method with arguments. -/
def Calls (file : TemplateFile) (entry : Entry) (method : MethodDeclaration)
    (arguments : List NodeId) : Prop :=
  ∃ identifier cls segment owner name,
    entry.content = .helperMethod identifier cls method segment owner ∧
      file.tree.kind? segment = some (.objectFunctionPathNode name arguments)

/-- What a call is reported for, the name of its method standing at `range`. -/
structure Reported (file : TemplateFile) (range : ByteRange) (method : MethodDeclaration)
    (arguments : List NodeId) (group : List Diagnostic) : Prop where
  /-- Each required parameter without an argument, at the name. -/
  missing : (group.filter fun diagnostic => diagnostic.code = .missingArgument) =
    List.replicate (method.requiredCount - arguments.length)
      ⟨file.uri, range, file.lines.span range, .error, .missingArgument, "Missing argument"⟩
  /-- Each argument behind the last parameter, at the argument. -/
  surplus : ¬ method.Variadic →
    (group.filter fun diagnostic => diagnostic.code = .tooManyArguments) =
      (arguments.drop method.parameters.length).map fun argument =>
        ⟨file.uri, file.tree.range argument, file.lines.span (file.tree.range argument), .warning,
          .tooManyArguments, "Too many arguments provided"⟩
  variadic : method.Variadic → ∀ diagnostic ∈ group, diagnostic.code ≠ .tooManyArguments
  one_kind : (∀ diagnostic ∈ group, diagnostic.code = .missingArgument) ∨
    ∀ diagnostic ∈ group, diagnostic.code = .tooManyArguments

/-- Of the required parameters those are reported that stand behind the arguments. -/
theorem missingFrom_eq (message : Diagnostic) (given index : Nat) (parameters : List Parameter) :
    missingFrom message given index parameters =
      List.replicate
        (index + parameters.findIdx (fun parameter => parameter.isOptional) - max index given) message := by
  induction parameters generalizing index with
  | nil =>
    have none : index + 0 - max index given = 0 := by omega
    rw [missingFrom, List.findIdx_nil, none, List.replicate_zero]
  | cons parameter more ih =>
    rw [missingFrom, List.findIdx_cons]
    cases optional : parameter.isOptional with
    | true =>
      have none : index + 0 - max index given = 0 := by omega
      rw [if_pos rfl, cond_true, none, List.replicate_zero]
    | false =>
      rw [if_neg Bool.false_ne_true, ih, cond_false]
      by_cases here : given ≤ index
      · rw [if_pos here, List.singleton_append, ← List.replicate_succ]
        congr 1
        omega
      · rw [if_neg here, List.nil_append]
        congr 1
        omega

/-- A last parameter that takes any number of arguments leaves none over. Otherwise those behind the
parameters are. -/
theorem surplus_eq (file : TemplateFile) (method : MethodDeclaration) (arguments : List NodeId) :
    file.surplus method arguments =
      if method.isVariadic then []
      else (arguments.drop method.parameters.length).map fun argument =>
        file.report .tooManyArguments (file.tree.range argument) "Too many arguments provided" := by
  unfold surplus
  cases method.isVariadic with
  | true => rw [if_pos rfl, if_neg fun more => Bool.noConfusion more.2]
  | false =>
    rw [if_neg Bool.false_ne_true]
    by_cases more : method.parameters.length < arguments.length
    · rw [if_pos ⟨more, rfl⟩]
    · rw [if_neg fun both => more both.1, List.drop_eq_nil_of_le (Nat.not_lt.mp more), List.map_nil]

theorem code_surplus {method : MethodDeclaration} {arguments : List NodeId} {diagnostic : Diagnostic}
    (member : diagnostic ∈ file.surplus method arguments) : diagnostic.code = .tooManyArguments := by
  rw [surplus_eq] at member
  split at member
  · exact nomatch member
  · obtain ⟨argument, -, rfl⟩ := List.mem_map.mp member
    rfl

/-- The two looks at one call: an argument that is missing leaves none over, for the required
parameters are among the parameters. -/
theorem reported_argumentDiagnostics (file : TemplateFile) (range : ByteRange)
    (method : MethodDeclaration) (arguments : List NodeId) :
    file.Reported range method arguments (file.argumentDiagnostics range method arguments) := by
  let message := file.report .missingArgument range "Missing argument"
  have missing : missingFrom message arguments.length 0 method.parameters =
      List.replicate (method.requiredCount - arguments.length) message := by
    rw [missingFrom_eq, Nat.zero_add, Nat.zero_max]
    rfl
  have whole : file.argumentDiagnostics range method arguments =
      List.replicate (method.requiredCount - arguments.length) message ++
        file.surplus method arguments := by
    rw [argumentDiagnostics, missing]
  have code_missing : ∀ diagnostic ∈
      List.replicate (method.requiredCount - arguments.length) message,
      diagnostic.code = .missingArgument := by
    intro diagnostic member
    rw [List.eq_of_mem_replicate member]
    rfl
  rw [whole]
  constructor
  case missing =>
    rw [List.filter_append, List.filter_eq_self.mpr fun _ member => decide_eq_true (code_missing _ member),
      List.filter_eq_nil_iff.mpr fun _ member => by rw [code_surplus member]; decide, List.append_nil]
    rfl
  case surplus =>
    intro fixed
    rw [List.filter_append,
      List.filter_eq_nil_iff.mpr fun _ member => by rw [code_missing _ member]; decide,
      List.filter_eq_self.mpr fun _ member => decide_eq_true (code_surplus member), List.nil_append,
      surplus_eq, if_neg fun variadic => fixed (method.isVariadic_iff.mp variadic)]
    rfl
  case variadic =>
    intro variadic diagnostic member
    rw [surplus_eq, if_pos (method.isVariadic_iff.mpr variadic), List.append_nil] at member
    rw [code_missing diagnostic member]
    decide
  case one_kind =>
    have among := method.requiredCount_le
    by_cases enough : method.requiredCount ≤ arguments.length
    · right
      intro diagnostic member
      rw [Nat.sub_eq_zero_of_le enough, List.replicate_zero, List.nil_append] at member
      exact code_surplus member
    · left
      intro diagnostic member
      have none : file.surplus method arguments = [] := by
        rw [surplus, if_neg fun more => by omega]
      rw [none, List.append_nil] at member
      exact code_missing diagnostic member

theorem entryDiagnostics_of_calls {entry : Entry} {method : MethodDeclaration}
    {arguments : List NodeId} (calls : file.Calls entry method arguments) :
    file.entryDiagnostics entry = file.argumentDiagnostics entry.range method arguments := by
  obtain ⟨identifier, cls, segment, owner, name, content, kind⟩ := calls
  simp only [entryDiagnostics, content, kind]

theorem entryDiagnostics_eq_nil {entry : Entry}
    (other : ¬ ∃ method arguments, file.Calls entry method arguments) :
    file.entryDiagnostics entry = [] := by
  unfold entryDiagnostics
  split
  · rename_i identifier cls method segment owner content
    split
    · rename_i name arguments kind
      exact absurd ⟨method, arguments, identifier, cls, segment, owner, name, content, kind⟩ other
    · rfl
  · rfl

/-- Whatever is put into a file that was just read, it is reported for its syntax errors in order, and
then for its calls in the order of the method entries. A call is reported once for each of its required
parameters that has no argument, or once for each argument behind the last parameter in order, unless
that takes any number; a method entry that is no call is not reported. -/
theorem diagnostics_by_call (uri : FileUri) (text : String) (tree : SyntaxTree)
    (errors : Array Template.SyntaxError) (insertions : List Insertion) :
    let file := ((ofTree uri text tree errors).insertAll insertions).2
    file.uri = uri ∧ file.tree = tree ∧ file.lines = .ofText text ∧
    ∃ groups : List (List Diagnostic),
      file.diagnostics =
        (errors.toList.map fun error =>
          ⟨uri, error.range, (LineIndex.ofText text).span error.range, .error, .syntaxError,
            error.fault.message⟩) ++ groups.flatten ∧
      List.Forall₂ (fun entry group =>
          (∀ method arguments, file.Calls entry method arguments →
            file.Reported entry.range method arguments group) ∧
          ((¬ ∃ method arguments, file.Calls entry method arguments) → group = []))
        (file.entries.toList.filter fun entry => entry.tag = .helperMethod) groups := by
  intro file
  obtain ⟨fresh, named, written, parsed, failed, -, -⟩ := ofTree_entries uri text tree errors
  have grown : (ofTree uri text tree errors).Extends file := .insertAll _ insertions
  have consistent : file.Consistent := fresh.insertAll insertions
  have lines : file.lines = .ofText text := by rw [consistent.lines, grown.text, written]
  refine ⟨grown.uri.trans named, grown.tree.trans parsed, lines,
    (file.entries.toList.filter fun entry => entry.tag = .helperMethod).map file.entryDiagnostics, ?_, ?_⟩
  · rw [diagnostics, consistent.withTag_eq, ← List.flatMap_def, syntaxDiagnostics, grown.errors, failed]
    simp only [report, grown.uri, named, lines, DiagnosticCode.severity]
  · rw [List.forall₂_map_right_iff, List.forall₂_same]
    intro entry _
    refine ⟨fun method arguments calls => ?_, fun other => entryDiagnostics_eq_nil other⟩
    rw [entryDiagnostics_of_calls calls]
    exact file.reported_argumentDiagnostics entry.range method arguments

private def countedCall (parameters : List Parameter) (segment : NodeId) (range : ByteRange) : Insertion :=
  let place : Span := ⟨⟨0, 0⟩, ⟨0, 0⟩⟩
  let method : MethodDeclaration :=
    ⟨"go", "go", false, parameters, .unresolved, "", none, ⟨0, 0⟩, place⟩
  let cls : LoadedClass := ⟨0, "A\\T", "A", [method], ⟨"file:///T.php"⟩, ⟨0, 0⟩, place⟩
  .entry (.helperMethod "T" cls method segment 0) .helperMethod range

/-- A method that requires two of its three parameters gets one argument, and one without parameters
gets two. -/
example :
    let required : Parameter := ⟨none, false, "a", none⟩
    let file := ((ofText ⟨"file:///Root.fusion"⟩ "a = $\x7bT.go(1)\x7d\nb = $\x7bT.go(2, 3)\x7d").insertAll
      [countedCall [required, required, ⟨none, false, "c", some "1"⟩] 4 ⟨8, 10⟩,
        countedCall [] 14 ⟨23, 25⟩]).2
    file.diagnostics.map (fun diagnostic => (diagnostic.code, diagnostic.range)) =
      [(.missingArgument, ⟨8, 10⟩), (.tooManyArguments, ⟨26, 27⟩), (.tooManyArguments, ⟨29, 30⟩)] := by
  decide +kernel

end TemplateFile

end FusionAtlas
