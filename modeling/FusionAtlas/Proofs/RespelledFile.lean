import FusionAtlas.Proofs.FilterSpelling
import FusionAtlas.Proofs.ResolutionPlan
import FusionAtlas.Proofs.TextlessTree

/-!
Files in which the names of classes are spelled in other ways. Resolution looks the same classes up in the
same order, and attaches the same references to the same literals. Main statement:
`TemplateFile.resolve_agree`.
-/

set_option autoImplicit false
set_option relaxedAutoImplicit false

namespace FusionAtlas

open ClassName (SameName Spelling)
open LookupProgram (Agree)
open SyntaxTree (SameShape)

/-- A class that a literal refers to, and the name it was looked up by. -/
structure ClassReference where
  identifier : String
  cls : LoadedClass
  literal : NodeId
  deriving DecidableEq, Repr

/-- The reference of an entry, if it is one. -/
def EntryContent.classReference? : EntryContent → Option ClassReference
  | classReference identifier cls literal => some ⟨identifier, cls, literal⟩
  | _ => none

namespace Attachment

/-- The references among what is attached. -/
def references (attachments : List Attachment) : List ClassReference :=
  attachments.filterMap fun attachment => attachment.content.classReference?

theorem references_cons (attachment : Attachment) (attachments : List Attachment) :
    references (attachment :: attachments) =
      attachment.content.classReference?.toList ++ references attachments := by
  rw [references, references, List.filterMap_cons]
  cases attachment.content.classReference? <;> rfl

/-- The only argument of a call that checks for a class, if it is a string. -/
def checkedArgument? (tree : SyntaxTree) (segment : NodeId) : Option (NodeId × String) :=
  if ((tree.kind? segment).bind NodeKind.chainValue?).any (Text.eqIgnoringAsciiCase · instanceofMethod) then
    onlyStringArgument? tree segment
  else none

end Attachment

namespace SyntaxTree

open Attachment

/-- The literals that are the value of a meta property for a class or the argument of a check, with their
texts. -/
def classNames (tree : SyntaxTree) : List (NodeId × String) :=
  tree.nodes.toList.filterMap (fun node => metaClassLiteral? tree node.kind) ++
    (List.range tree.size).filterMap (checkedArgument? tree)

/-- All strings with their texts. -/
def strings (tree : SyntaxTree) : List (NodeId × String) :=
  tree.nodes.toList.zipIdx.filterMap fun node => (stringText? node.1.kind).map fun text => (node.2, text)

/-- The same tree but for places and the texts of strings: the names of classes may be spelled in other ways. -/
structure Respelled (tree other : SyntaxTree) : Prop where
  shape : SameShape tree other
  classNames : ∀ literal a b, (literal, a) ∈ tree.classNames → (literal, b) ∈ other.classNames →
    SameName a.toList b.toList
  filters : ∀ literal a b, (literal, a) ∈ tree.strings → (literal, b) ∈ other.strings →
    OpensFilter a.toList ∨ OpensFilter b.toList → SameFilters a.toList b.toList

end SyntaxTree

variable {tree other : SyntaxTree} {helpers : BoundHelpers} {disk : Disk}

namespace SyntaxTree.SameShape

theorem onlyStringArgument?_rel (same : SameShape tree other) (segment : NodeId) :
    Option.Rel (fun x y => x.1 = y.1) (Attachment.onlyStringArgument? tree segment)
      (Attachment.onlyStringArgument? other segment) := by
  unfold Attachment.onlyStringArgument?
  rcases same.kind?_cases segment with equal | ⟨a, b, first, second⟩ | ⟨a, b, first, second⟩
  · rw [equal]
    split
    · next argument _ =>
      rcases same.kind?_cases argument with equal | ⟨a, b, first, second⟩ | ⟨a, b, first, second⟩
      · rw [equal]
        split
        · exact .some rfl
        · exact .none
      · rw [first, second]
        exact .none
      · rw [first, second]
        exact .some rfl
    · exact .none
  all_goals
    rw [first, second]
    exact .none

theorem metaSegment?_eq (same : SameShape tree other) (segments : List NodeId) :
    Attachment.metaSegment? tree segments = Attachment.metaSegment? other segments := by
  match segments with
  | [] => rfl
  | [segment] => rfl
  | first :: second :: rest =>
    rw [Attachment.metaSegment?, Attachment.metaSegment?]
    rcases same.kind?_cases first with equal | ⟨a, b, first, second⟩ | ⟨a, b, first, second⟩
    · rw [equal]
    all_goals rw [first, second]

/-- What reads a node in one tree and what reads it in the other are related, if they are for one node and for
two strings. -/
theorem bind_kind? {α β : Type} {r : α → β → Prop} {f : NodeKind → Option α} {g : NodeKind → Option β}
    (same : SameShape tree other) (id : NodeId) (agree : ∀ kind, Option.Rel r (f kind) (g kind))
    (value : ∀ a b, Option.Rel r (f (.stringValue a)) (g (.stringValue b)))
    (literal : ∀ a b, Option.Rel r (f (.literalString a)) (g (.literalString b))) :
    Option.Rel r (tree.kind? id >>= f) (other.kind? id >>= g) := by
  rcases same.kind?_cases id with equal | ⟨a, b, first, second⟩ | ⟨a, b, first, second⟩
  · rw [equal]
    cases other.kind? id with
    | none => exact .none
    | some kind => exact agree kind
  · rw [first, second]
    exact value a b
  · rw [first, second]
    exact literal a b

theorem metaClassLiteral?_rel (same : SameShape tree other) {kind kind' : NodeKind}
    (textless : kind.textless = kind'.textless) :
    Option.Rel (fun x y => x.1 = y.1) (Attachment.metaClassLiteral? tree kind)
      (Attachment.metaClassLiteral? other kind') := by
  rcases NodeKind.textless_cases textless with rfl | ⟨a, b, rfl, rfl⟩ | ⟨a, b, rfl, rfl⟩
  -- Only the value of the statement may be a string, so up to there both trees are read alike.
  · unfold Attachment.metaClassLiteral?
    split
    · next path operation _ =>
      refine same.bind_kind? path (fun pathKind => ?_) (fun _ _ => .none) fun _ _ => .none
      split
      · next segments =>
        rw [same.metaSegment?_eq]
        cases Attachment.metaSegment? other segments with
        | none => exact .none
        | some segment =>
          refine same.bind_kind? segment (fun metaKind => ?_) (fun _ _ => .none) fun _ _ => .none
          split
          · dsimp only
            split
            · exact .none
            · refine same.bind_kind? operation (fun operationKind => ?_) (fun _ _ => .none) fun _ _ => .none
              split
              · next value =>
                refine same.bind_kind? value (fun valueKind => ?_) (fun _ _ => .some rfl) fun _ _ => .none
                split
                · exact .some rfl
                · exact .none
              · exact .none
          · exact .none
      · exact .none
    · exact .none
  all_goals exact .none

end SyntaxTree.SameShape

/-- Lists with the same images correspond item by item. -/
theorem forall₂_of_map_eq {α β γ : Type} {f : α → γ} {g : β → γ} {items : List α} {others : List β}
    (same : items.map f = others.map g) :
    List.Forall₂ (fun x y => f x = g y ∧ x ∈ items ∧ y ∈ others) items others := by
  induction items generalizing others with
  | nil =>
    rw [List.map_nil, eq_comm, List.map_eq_nil_iff] at same
    exact same ▸ .nil
  | cons x items ih =>
    cases others with
    | nil => cases same
    | cons y others =>
      obtain ⟨first, rest⟩ := List.cons.inj same
      refine .cons ⟨first, List.mem_cons_self .., List.mem_cons_self ..⟩ ((ih rest).imp ?_)
      exact fun _ _ ⟨equal, member, member'⟩ =>
        ⟨equal, List.mem_cons_of_mem _ member, List.mem_cons_of_mem _ member'⟩

namespace Attachment

theorem reference_agree {written written' : List Char}
    (same : ClassName.collapse written = ClassName.collapse written') (disk : Disk) (literal : NodeId)
    (range range' : ByteRange) :
    Agree (fun x y => references x.toList = references y.toList) (reference disk written literal range)
      (reference disk written' literal range') := by
  unfold reference
  rw [same]
  refine (Agree.refl _).bind fun found found' equal => .pure ?_
  subst equal
  cases found <;> rfl

theorem mem_classNames_of_checkedArgument (segment : NodeId) {literal : NodeId} {text : String}
    (found : checkedArgument? tree segment = some (literal, text)) : (literal, text) ∈ tree.classNames := by
  refine List.mem_append_right _ (List.mem_filterMap.mpr ⟨segment, List.mem_range.mpr ?_, found⟩)
  unfold checkedArgument? at found
  split at found
  · unfold onlyStringArgument? at found
    split at found
    · next kind =>
      obtain ⟨node, here, -⟩ := Option.map_eq_some_iff.mp kind
      exact (Array.getElem?_eq_some_iff.mp here).1
    · cases found
  · cases found

/-- What the arguments of one step in both trees refer to. -/
theorem ofStep_agree (respelled : tree.Respelled other) {step step' : ChainStep}
    (unplaced : step.unplaced = step'.unplaced) (disk : Disk) :
    Agree (fun x y => references x.toList = references y.toList) (ofStep tree disk step)
      (ofStep other disk step') := by
  have segment : step.segment = step'.segment := (congrArg ChainStep.segment unplaced :)
  have identifier : step.helper.identifier = step'.helper.identifier :=
    (congrArg (fun step : ChainStep => step.helper.identifier) unplaced :)
  have called := respelled.shape.chainValue?_eq step'.segment
  unfold ofStep
  rw [segment, identifier, called]
  rcases rel_cases (respelled.shape.onlyStringArgument?_rel step'.segment) with ⟨first, second⟩ |
    ⟨⟨literal, a⟩, ⟨literal', b⟩, first, second, same⟩
  · rw [first, second]
    split
    · next argument => cases argument
    · exact .pure rfl
  · obtain rfl : literal = literal' := same
    rw [first, second]
    cases callee : (other.kind? step'.segment).bind NodeKind.chainValue? with
    | none => exact .pure rfl
    | some name =>
      dsimp only
      split
      · exact .pure rfl
      · split
        · next checks =>
          have checked {tree : SyntaxTree} {text : String}
              (named : (tree.kind? step'.segment).bind NodeKind.chainValue? = some name)
              (argument : onlyStringArgument? tree step'.segment = some (literal, text)) :
              (literal, text) ∈ tree.classNames := by
            refine mem_classNames_of_checkedArgument step'.segment ?_
            have compared := (Bool.and_eq_true_iff.mp checks).2
            rw [checkedArgument?, named, Option.any_some, if_pos compared, argument]
          have spelled := respelled.classNames literal a b (checked (called.trans callee) first)
            (checked callee second)
          exact reference_agree spelled.collapse_eq disk literal _ _
        · exact .pure rfl

theorem ofMetaClass_agree (respelled : tree.Respelled other) {node node' : SyntaxNode}
    (textless : node.kind.textless = node'.kind.textless) (member : node ∈ tree.nodes.toList)
    (member' : node' ∈ other.nodes.toList) (disk : Disk) :
    Agree (fun x y => references x.toList = references y.toList) (ofMetaClass tree disk node)
      (ofMetaClass other disk node') := by
  unfold ofMetaClass
  rcases rel_cases (respelled.shape.metaClassLiteral?_rel textless) with ⟨first, second⟩ |
    ⟨⟨literal, a⟩, ⟨literal', b⟩, first, second, same⟩
  · rw [first, second]
    exact .pure rfl
  · obtain rfl : literal = literal' := same
    rw [first, second]
    have listed : (literal, a) ∈ tree.classNames :=
      List.mem_append_left _ (List.mem_filterMap.mpr ⟨node, member, first⟩)
    have listed' : (literal, b) ∈ other.classNames :=
      List.mem_append_left _ (List.mem_filterMap.mpr ⟨node', member', second⟩)
    exact reference_agree (respelled.classNames literal a b listed listed').collapse_eq disk literal _ _

/-- Lookups one by one that agree find the same references. -/
theorem references_filterMap_agree {α β : Type} {r : α → β → Prop}
    {f : α → StateM ClassLibrary (Option Attachment)} {g : β → StateM ClassLibrary (Option Attachment)}
    (step : ∀ x y, r x y → Agree (fun x y => references x.toList = references y.toList) (f x) (g y))
    {items : List α} {others : List β} (related : List.Forall₂ r items others) :
    Agree (fun x y => references x = references y) (do return (← items.mapM f).filterMap id)
      (do return (← others.mapM g).filterMap id) := by
  refine (Agree.mapM step related).bind fun found found' same => .pure ?_
  induction same with
  | nil => rfl
  | @cons x y found found' first _ ih =>
    have split (x : Option Attachment) (found : List (Option Attachment)) :
        references ((x :: found).filterMap id) = references x.toList ++ references (found.filterMap id) := by
      rw [references, references, references, ← List.filterMap_append]
      cases x <;> rfl
    rw [split, split, first, ih]

theorem ofMetaClasses_agree (respelled : tree.Respelled other) (disk : Disk) :
    Agree (fun x y => references x = references y) (ofMetaClasses tree disk) (ofMetaClasses other disk) :=
  references_filterMap_agree
    (fun _ _ ⟨textless, member, member'⟩ => ofMetaClass_agree respelled textless member member' disk)
    (forall₂_of_map_eq respelled.shape)

theorem ofFilters_agree (respelled : tree.Respelled other) {node node' : SyntaxNode} {literal : NodeId}
    (textless : node.kind.textless = node'.kind.textless) (member : (node, literal) ∈ tree.nodes.toList.zipIdx)
    (member' : (node', literal) ∈ other.nodes.toList.zipIdx) (disk : Disk) :
    Agree (fun x y => references x = references y) (ofFilters disk literal node)
      (ofFilters disk literal node') := by
  have listed {tree : SyntaxTree} {node : SyntaxNode} {text : String}
      (member : (node, literal) ∈ tree.nodes.toList.zipIdx) (string : stringText? node.kind = some text) :
      (literal, text) ∈ tree.strings :=
    List.mem_filterMap.mpr ⟨(node, literal), member, by rw [string]; rfl⟩
  -- The names may stand in other places, but ask for the same classes in the same order.
  have names : (((stringText? node.kind).map fun text => filterNames text.toList).getD []).map
      (fun entry => ClassName.collapse entry.2) =
      (((stringText? node'.kind).map fun text => filterNames text.toList).getD []).map
        fun entry => ClassName.collapse entry.2 := by
    have asked {a b : String} (string : stringText? node.kind = some a)
        (string' : stringText? node'.kind = some b) : askedClasses a.toList = askedClasses b.toList :=
      askedClasses_eq_of_opensFilter
        (respelled.filters literal a b (listed member string) (listed member' string'))
    rcases NodeKind.textless_cases textless with equal | ⟨a, b, first, second⟩ | ⟨a, b, first, second⟩
    · rw [equal]
    all_goals
      rw [first, second]
      exact asked (by rw [first]; rfl) (by rw [second]; rfl)
  unfold ofFilters
  exact references_filterMap_agree (fun _ _ ⟨same, _⟩ => reference_agree same disk literal _ _)
    (forall₂_of_map_eq names)

theorem ofInstanceofFilters_agree (respelled : tree.Respelled other) (disk : Disk) :
    Agree (fun x y => references x = references y) (ofInstanceofFilters tree disk)
      (ofInstanceofFilters other disk) := by
  have shape : tree.nodes.toList.zipIdx.map (Prod.map (·.kind.textless) id) =
      other.nodes.toList.zipIdx.map (Prod.map (·.kind.textless) id) := by
    rw [List.map_zipIdx, List.map_zipIdx]
    exact congrArg List.zipIdx respelled.shape
  refine (Agree.mapM (r := fun x y => references x = references y) ?step
    (forall₂_of_map_eq shape)).bind fun found found' same => .pure ?_
  case step =>
    rintro ⟨node, literal⟩ ⟨node', literal'⟩ ⟨same, member, member'⟩
    obtain ⟨textless, equal⟩ := Prod.mk.inj same
    obtain rfl : literal = literal' := equal
    exact ofFilters_agree respelled textless member member' disk
  induction same with
  | nil => rfl
  | cons first _ ih =>
    rw [List.flatten_cons, List.flatten_cons, references, references, List.filterMap_append,
      List.filterMap_append]
    exact congrArg₂ (· ++ ·) first ih

end Attachment

namespace TemplateFile

/-- The references to classes among the entries of a file. -/
def references (file : TemplateFile) : List ClassReference :=
  file.entries.toList.filterMap fun entry => entry.content.classReference?

theorem references_add (file : TemplateFile) (content : EntryContent) (tag : NodeTag) (range : ByteRange) :
    (file.add content tag range).references = file.references ++ content.classReference?.toList := by
  rw [references, toList_entries_add, List.filterMap_append]
  cases content <;> rfl

theorem references_attachStep (file : TemplateFile) (step : ChainStep) :
    (file.attachStep step).2.references = file.references := by
  simp only [attachStep, references_add, EntryContent.classReference?, Option.toList_none, List.append_nil]

theorem references_foldl_attach (file : TemplateFile) (attachments : List Attachment) :
    (attachments.foldl attach file).references = file.references ++ Attachment.references attachments := by
  induction attachments generalizing file with
  | nil => exact (List.append_nil _).symm
  | cons attachment attachments ih =>
    rw [List.foldl_cons, ih, attach, references_add, List.append_assoc, Attachment.references_cons]

/-- A file that was just read refers to no class. -/
theorem references_ofTree (uri : FileUri) (text : String) (tree : SyntaxTree)
    (errors : Array Template.SyntaxError) : (ofTree uri text tree errors).references = [] := by
  obtain ⟨-, -, -, -, -, -, entries⟩ := ofTree_entries uri text tree errors
  rw [references, entries, List.filterMap_map, List.filterMap_eq_nil_iff]
  exact fun _ _ => rfl

end TemplateFile

namespace Resolving

/-- Files with the two trees that refer to the same classes. -/
def SameReferences (tree other : SyntaxTree) (r s : Resolving) : Prop :=
  r.file.tree = tree ∧ s.file.tree = other ∧ r.file.references = s.file.references

theorem SameReferences.attachAll {r s : Resolving} (same : SameReferences tree other r s)
    {attachments others : List Attachment}
    (equal : Attachment.references attachments = Attachment.references others) :
    SameReferences tree other (r.attachAll attachments) (s.attachAll others) := by
  obtain ⟨first, second, references⟩ := same
  refine ⟨?_, ?_, ?_⟩
  · rw [attachAll_eq, tree_insertAll, first]
  · rw [attachAll_eq, tree_insertAll, second]
  · rw [Resolving.attachAll, Resolving.attachAll, TemplateFile.references_foldl_attach,
      TemplateFile.references_foldl_attach, references, equal]

theorem attach_agree (respelled : tree.Respelled other) (disk : Disk) {r s : Resolving} {step step' : ChainStep}
    (same : SameReferences tree other r s) (unplaced : step.unplaced = step'.unplaced) :
    Agree (SameReferences tree other) (attach disk r step) (attach disk s step') := by
  obtain ⟨rfl, rfl, references⟩ := same
  refine (Attachment.ofStep_agree respelled unplaced disk).bind fun found found' equal => .pure ?_
  refine SameReferences.attachAll ⟨?_, ?_, ?_⟩ equal
  · rfl
  · rfl
  · rw [TemplateFile.references_attachStep, TemplateFile.references_attachStep, references]

theorem chain_agree (respelled : tree.Respelled other) (helpers : BoundHelpers) (disk : Disk)
    (objectNode : NodeId) {r s : Resolving} (same : SameReferences tree other r s) :
    Agree (SameReferences tree other) (chain helpers disk r objectNode) (chain helpers disk s objectNode) := by
  unfold chain
  rw [same.1, same.2.1]
  refine (Chain.follow_agree respelled.shape helpers disk objectNode).bind fun followed followed' equal => ?_
  match followed, followed', equal with
  | .error _, .error _, _ => exact .pure same
  | .ok (_, made), .ok (_, made'), equal =>
    have steps : List.Forall₂ (fun x y : ChainStep => x.unplaced = y.unplaced) made made' := equal
    have step (r s : Resolving) (x y : ChainStep) (same : SameReferences tree other r s)
        (unplaced : x.unplaced = y.unplaced) := attach_agree respelled disk same unplaced
    exact Agree.foldlM step steps same

end Resolving

theorem NodeKind.tag_textless (kind : NodeKind) : kind.textless.tag = kind.tag := by
  cases kind <;> rfl

theorem SyntaxTree.SameShape.chains_eq (same : SameShape tree other) : tree.chains = other.chains := by
  have read (tree : SyntaxTree) : tree.chains =
      ((tree.nodes.toList.map (·.kind.textless)).zipIdx.filter fun node =>
        node.1.tag = .objectNode).map (·.2) := by
    rw [chains, List.zipIdx_map, List.filter_map, List.map_map]
    simp only [Function.comp_def, Prod.map_fst, Prod.map_snd, id, NodeKind.tag_textless]
  rw [read, read, same]

namespace TemplateFile

/-- Two files that were read to trees with the names of classes spelled in other ways look the same classes up
when they are resolved, and come to refer to the same classes with the same literals. -/
theorem resolve_agree (respelled : tree.Respelled other) (uri uri' : FileUri) (text text' : String)
    (errors errors' : Array Template.SyntaxError) (helpers : BoundHelpers) (disk : Disk) :
    Agree (Resolving.SameReferences tree other) ((ofTree uri text tree errors).resolve helpers disk)
      ((ofTree uri' text' other errors').resolve helpers disk) := by
  obtain ⟨-, -, -, parsed, -⟩ := ofTree_entries uri text tree errors
  obtain ⟨-, -, -, parsed', -⟩ := ofTree_entries uri' text' other errors'
  have start : Resolving.SameReferences tree other ⟨ofTree uri text tree errors, 0, 0⟩
      ⟨ofTree uri' text' other errors', 0, 0⟩ :=
    ⟨parsed, parsed', by rw [references_ofTree, references_ofTree]⟩
  -- Whether chains are followed or not, the classes that literals name come last.
  have literals {r s : Resolving} (same : Resolving.SameReferences tree other r s) :
      Agree (Resolving.SameReferences tree other)
        (do
          let metaClasses ← Attachment.ofMetaClasses tree disk
          let filters ← Attachment.ofInstanceofFilters tree disk
          return (r.attachAll metaClasses).attachAll filters)
        (do
          let metaClasses ← Attachment.ofMetaClasses other disk
          let filters ← Attachment.ofInstanceofFilters other disk
          return (s.attachAll metaClasses).attachAll filters) := by
    refine (Attachment.ofMetaClasses_agree respelled disk).bind fun _ _ first => ?_
    exact (Attachment.ofInstanceofFilters_agree respelled disk).bind fun _ _ second =>
      .pure ((same.attachAll first).attachAll second)
  have chains : Agree (Resolving.SameReferences tree other)
      (tree.chains.foldlM (Resolving.chain helpers disk) ⟨ofTree uri text tree errors, 0, 0⟩)
      (other.chains.foldlM (Resolving.chain helpers disk) ⟨ofTree uri' text' other errors', 0, 0⟩) := by
    have each : List.Forall₂ Eq other.chains other.chains := List.forall₂_refl _
    rw [respelled.shape.chains_eq]
    refine Agree.foldlM ?_ each start
    rintro r s objectNode _ same rfl
    exact Resolving.chain_agree respelled helpers disk objectNode same
  unfold resolve
  rw [chains_ofTree, chains_ofTree, parsed, parsed']
  simp only
  split
  · exact (Agree.pure start).bind fun _ _ same => literals same
  · exact chains.bind fun _ _ same => literals same

/-- However the backslashes of a name are written, it is read as its parts with single ones between them. So a
file in which names are spelled in other ways, as values of meta properties for classes, as arguments of checks
or in filters, looks the same classes up and refers to the same ones. In filters only names that lead with a
backslash are looked up, so a name must lead with some in both files or in neither there. -/
theorem lookups_of_any_spelling :
    (∀ name : Spelling, ClassName.collapse name.text = ['\\'].intercalate name.parts) ∧
    (∀ tree other : SyntaxTree, tree.Respelled other →
      ∀ (uri uri' : FileUri) (text text' : String) (errors errors' : Array Template.SyntaxError)
        (helpers : BoundHelpers) (disk : Disk) (library : ClassLibrary),
        let found := ((ofTree uri text tree errors).resolve helpers disk).run library
        let found' := ((ofTree uri' text' other errors').resolve helpers disk).run library
        found.2 = found'.2 ∧ found.1.file.references = found'.1.file.references) ∧
    ∀ text, ∀ entry ∈ Attachment.filterNames text, entry.2.head? = some '\\' := by
  refine ⟨Spelling.collapse_text, ?_, Attachment.head?_of_mem_filterNames⟩
  intro tree other respelled uri uri' text text' errors errors' helpers disk library
  obtain ⟨looked, -, -, same⟩ :=
    resolve_agree respelled uri uri' text text' errors errors' helpers disk library
  exact ⟨looked, same⟩

private def scaleDisk : Disk :=
  ⟨.directory [(Text.Utf8.encode "src".toList, .directory
    [(Text.Utf8.encode "Scale.php".toList, .file (Text.Utf8.encode
        "<?php\nnamespace Acme;\nclass Scale {}\n".toList)),
      (Text.Utf8.encode "Checks.php".toList, .file (Text.Utf8.encode
        "<?php\nnamespace Acme;\nclass Checks { public function instanceOf() {} }\n".toList))])]⟩

private def scaleLibrary : ClassLibrary := .make [.make "Acme" (.ofString "/src")]

private def scaleHelpers : BoundHelpers := BoundHelpers.empty.bind "PropTypes" "Acme\\Checks"

/-- A template that names a class in a check, in a filter and as the value of a meta property. -/
private def scaleText (checked filtered assigned : Spelling) : String :=
  String.ofList ("a = $\x7bPropTypes.instanceOf('".toList ++ checked.text ++
    "')\x7d\nb = '[instanceof ".toList ++ filtered.text ++ "]'\n@class = '".toList ++
    assigned.text ++ "'\n".toList)

private def scaleResolved (text : String) : Resolving × ClassLibrary :=
  ((ofText ⟨"file:///Root.fusion"⟩ text).resolve scaleHelpers scaleDisk).run scaleLibrary

private def scaleName (leading : Nat) (doubled : Bool) : Spelling where
  leading := leading
  first := "Acme".toList
  others := [(doubled, "Scale".toList)]
  isPart := by
    change ∀ part ∈ ["Acme".toList, "Scale".toList], ClassName.IsPart part
    decide

private def plainScale : String := scaleText (scaleName 0 false) (scaleName 1 false) (scaleName 0 false)

private def doubledScale : String := scaleText (scaleName 3 true) (scaleName 2 true) (scaleName 5 false)

/-- The filter with a name. -/
private def scaleFilter (name : Spelling) : List Char := "[instanceof".toList ++ ' ' :: (name.text ++ [']'])

private def scaleFilterText (name : Spelling) : String :=
  String.ofList ("a = '".toList ++ scaleFilter name ++ "'\n".toList)

/-- The nodes of both templates, without the texts of strings. -/
private def scaleShape : List NodeKind :=
  [.pathSegment "a", .objectPath [0], .objectPathNode "PropTypes", .literalString "",
    .objectFunctionPathNode "instanceOf" [3], .objectNode [2, 4], .eelExpression (some 5), .valueAssignment 6,
    .objectStatement 1 (some 7) none, .pathSegment "b", .objectPath [9], .stringValue "", .valueAssignment 11,
    .objectStatement 10 (some 12) none, .metaPathSegment "class", .objectPath [14], .stringValue "",
    .valueAssignment 16, .objectStatement 15 (some 17) none, .fusionFile [8, 13, 18]]

private theorem read_plainScale :
    let tree := (parseTemplate plainScale).tree
    tree.nodes.toList.map (·.kind.textless) = scaleShape ∧
      tree.classNames = [(16, .ofList (scaleName 0 false).text), (3, .ofList (scaleName 0 false).text)] ∧
      tree.strings = [(3, .ofList (scaleName 0 false).text), (11, .ofList (scaleFilter (scaleName 1 false))),
        (16, .ofList (scaleName 0 false).text)] := by
  decide +kernel

private theorem read_doubledScale :
    let tree := (parseTemplate doubledScale).tree
    tree.nodes.toList.map (·.kind.textless) = scaleShape ∧
      tree.classNames = [(16, .ofList (scaleName 5 false).text), (3, .ofList (scaleName 3 true).text)] ∧
      tree.strings = [(3, .ofList (scaleName 3 true).text), (11, .ofList (scaleFilter (scaleName 2 true))),
        (16, .ofList (scaleName 5 false).text)] := by
  decide +kernel

private theorem sameName_scale (m n : Nat) (x y : Bool) :
    SameName (String.ofList (scaleName m x).text).toList (String.ofList (scaleName n y).text).toList := by
  rw [String.toList_ofList, String.toList_ofList]
  exact .inr ⟨scaleName m x, scaleName n y, rfl, rfl, rfl⟩

private theorem respelled_scale :
    (parseTemplate plainScale).tree.Respelled (parseTemplate doubledScale).tree where
  shape := read_plainScale.1.trans read_doubledScale.1.symm
  classNames := by
    intro literal a b first second
    rw [read_plainScale.2.1, List.mem_pair, Prod.mk.injEq, Prod.mk.injEq] at first
    rw [read_doubledScale.2.1, List.mem_pair, Prod.mk.injEq, Prod.mk.injEq] at second
    rcases first with ⟨-, rfl⟩ | ⟨-, rfl⟩ <;> rcases second with ⟨-, rfl⟩ | ⟨-, rfl⟩ <;>
      exact sameName_scale ..
  filters := by
    intro literal a b first second opens
    rw [read_plainScale.2.2] at first
    rw [read_doubledScale.2.2] at second
    simp only [List.mem_cons, Prod.mk.injEq, List.not_mem_nil, or_false] at first second
    rcases first with ⟨rfl, rfl⟩ | ⟨rfl, rfl⟩ | ⟨rfl, rfl⟩
    · obtain ⟨-, rfl⟩ | ⟨other, -⟩ | ⟨other, -⟩ := second
      · exact absurd opens (by decide +kernel)
      · cases other
      · cases other
    · obtain ⟨other, -⟩ | ⟨-, rfl⟩ | ⟨other, -⟩ := second
      · cases other
      · have parts : (scaleName 1 false).parts = (scaleName 2 true).parts := rfl
        have led : (scaleName 1 false).leading = 0 ↔ (scaleName 2 true).leading = 0 := by decide
        have blank : Text.isBlank ' ' = true := rfl
        rw [String.toList_ofList, String.toList_ofList]
        exact .spelled parts led blank _ _
      · cases other
    · obtain ⟨other, -⟩ | ⟨other, -⟩ | ⟨-, rfl⟩ := second
      · cases other
      · cases other
      · exact absurd opens (by decide +kernel)

/-- A class named in a check, in a filter and as the value of a meta property, with single backslashes and as
few as can be, or with more of them. -/
theorem lookups_of_doubled_names :
    (parseTemplate plainScale).tree.Respelled (parseTemplate doubledScale).tree ∧
      (scaleResolved plainScale).1.file.references.map (·.identifier) =
        ["Acme\\Scale", "Acme\\Scale", "Acme\\Scale"] ∧
      (scaleResolved doubledScale).2 = (scaleResolved plainScale).2 ∧
      (scaleResolved doubledScale).1.file.references = (scaleResolved plainScale).1.file.references := by
  obtain ⟨-, respelled, -⟩ := lookups_of_any_spelling
  obtain ⟨looked, same⟩ := respelled _ _ respelled_scale ⟨"file:///Root.fusion"⟩ ⟨"file:///Root.fusion"⟩
    plainScale doubledScale (parseTemplate plainScale).errors (parseTemplate doubledScale).errors
    scaleHelpers scaleDisk scaleLibrary
  exact ⟨respelled_scale, by decide +kernel, looked.symm, same.symm⟩

/-- In a filter a name without a leading backslash is looked up nowhere, though the class would be found under
it. -/
theorem filter_of_unled_name :
    (scaleName 0 false).parts = (scaleName 1 false).parts ∧
      ClassName.collapse (scaleName 0 false).text = ClassName.collapse (scaleName 1 false).text ∧
      (scaleResolved (scaleFilterText (scaleName 0 false))).1.file.references = [] ∧
      (scaleResolved (scaleFilterText (scaleName 1 false))).1.file.references.map (·.identifier) =
        ["Acme\\Scale"] :=
  ⟨rfl, by decide +kernel, by decide +kernel, by decide +kernel⟩

end TemplateFile

end FusionAtlas
