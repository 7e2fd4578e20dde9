import FusionAtlas.Proofs.LineIndex
import FusionAtlas.Proofs.StatementLayout
import FusionAtlas.Resolution

/-!
The entries of a file, whatever is put into it after it was read. They are kept twice, in the order they
came in and by tag, and those of a step name each other by numbers that were told before they were there.
Main statements: `TemplateFile.Consistent.add` for both stores, `TemplateFile.joins_insertAll` for the
entries that name each other, and `TemplateFile.stores_agree`.
-/

set_option autoImplicit false
set_option relaxedAutoImplicit false

namespace FusionAtlas

open FusionAtlas.Text (byteSize)

namespace ByteRange

theorem start_le_stop_clamp (r : ByteRange) (size : Nat) : (r.clamp size).start ≤ (r.clamp size).stop :=
  Nat.le_max_left _ _

theorem stop_clamp_le (r : ByteRange) (size : Nat) : (r.clamp size).stop ≤ size := by
  simp only [clamp]
  omega

theorem clamp_eq_self {r : ByteRange} {size : Nat} (ordered : r.start ≤ r.stop) (bound : r.stop ≤ size) :
    r.clamp size = r := by
  have start : min r.start size = r.start := by omega
  have stop : max r.start (min r.stop size) = r.stop := by omega
  simp only [clamp, start, stop]

end ByteRange

theorem NodeKind.isSynthetic_tag (kind : NodeKind) : kind.tag.isSynthetic = false := by
  cases kind <;> rfl

namespace TagIndex

@[simp] theorem get_push (index : TagIndex) (tag : NodeTag) (id : EntryId) (other : NodeTag) :
    (index.push tag id).get other =
      if other = tag then (index.get tag).push id else index.get other := by
  by_cases same : other = tag
  · subst same
    simp [get, push]
  · have behind : (fun listed : NodeTag × Array EntryId =>
        !decide (listed.1 = tag) && decide (listed.1 = other)) = fun listed => decide (listed.1 = other) := by
      funext listed
      by_cases here : listed.1 = other
      · simp [here, same]
      · simp [here]
    simp [get, push, same, Ne.symm same, List.find?_filter, behind]

end TagIndex

/-- The entry with a number, its range cut to the text. -/
def Entry.placed (lines : LineIndex) (id : EntryId) (content : EntryContent) (tag : NodeTag)
    (range : ByteRange) : Entry :=
  ⟨id, tag, content, range.clamp lines.size, lines.span (range.clamp lines.size)⟩

namespace TemplateFile

variable {file : TemplateFile}

theorem toList_entries_add (file : TemplateFile) (content : EntryContent) (tag : NodeTag)
    (range : ByteRange) :
    (file.add content tag range).entries.toList =
      file.entries.toList ++ [.placed file.lines file.size content tag range] :=
  Array.toList_push ..

@[simp] theorem size_add (file : TemplateFile) (content : EntryContent) (tag : NodeTag)
    (range : ByteRange) : (file.add content tag range).size = file.size + 1 :=
  Array.size_push ..

/-- A later state of the same file: it has more entries, and is otherwise the same. -/
structure Extends (before after : TemplateFile) : Prop where
  uri : after.uri = before.uri
  text : after.text = before.text
  lines : after.lines = before.lines
  tree : after.tree = before.tree
  errors : after.errors = before.errors
  components : after.components = before.components
  entries : before.entries.toList <+: after.entries.toList

namespace Extends

theorem refl (file : TemplateFile) : Extends file file :=
  ⟨rfl, rfl, rfl, rfl, rfl, rfl, List.prefix_refl _⟩

theorem trans {a b c : TemplateFile} (first : Extends a b) (second : Extends b c) : Extends a c :=
  ⟨second.uri.trans first.uri, second.text.trans first.text, second.lines.trans first.lines,
    second.tree.trans first.tree, second.errors.trans first.errors,
    second.components.trans first.components, first.entries.trans second.entries⟩

theorem add (file : TemplateFile) (content : EntryContent) (tag : NodeTag) (range : ByteRange) :
    Extends file (file.add content tag range) := by
  refine ⟨rfl, rfl, rfl, rfl, rfl, rfl, ?_⟩
  rw [toList_entries_add]
  exact List.prefix_append _ _

/-- Entries keep their numbers. -/
theorem getElem? {after : TemplateFile} {n : Nat} {entry : Entry} (grown : Extends file after)
    (held : file.entries[n]? = some entry) : after.entries[n]? = some entry := by
  obtain ⟨more, whole⟩ := grown.entries
  rw [← Array.getElem?_toList] at held ⊢
  rw [← whole, List.getElem?_append_left (List.getElem?_eq_some_iff.mp held).1, held]

end Extends

/-- Both stores agree, entries have the numbers of their places, and their ranges lie in the text. -/
structure Consistent (file : TemplateFile) : Prop where
  lines : file.lines = .ofText file.text
  numbered : file.entries.toList.map (·.id) = List.range file.size
  tagged : ∀ tag, (file.tagged.get tag).toList =
    (file.entries.toList.filter fun entry => entry.tag = tag).map (·.id)
  placed : ∀ entry ∈ file.entries.toList, entry.range.start ≤ entry.range.stop ∧
    entry.range.stop ≤ byteSize file.text.toList ∧ entry.span = file.lines.span entry.range

namespace Consistent

theorem add (consistent : file.Consistent) (content : EntryContent) (tag : NodeTag)
    (range : ByteRange) : (file.add content tag range).Consistent := by
  have size : file.lines.size = byteSize file.text.toList := by
    rw [consistent.lines, LineIndex.size_ofText]
  constructor
  case lines => exact consistent.lines
  case numbered =>
    rw [toList_entries_add, List.map_append, consistent.numbered, size_add, List.range_succ]
    rfl
  case tagged =>
    intro other
    have noted : (file.add content tag range).tagged = file.tagged.push tag file.size := rfl
    rw [noted, TagIndex.get_push, toList_entries_add, List.filter_append, List.map_append,
      ← consistent.tagged other]
    by_cases same : other = tag
    · subst same
      simp [Entry.placed]
    · simp [Entry.placed, same, Ne.symm same]
  case placed =>
    intro entry member
    rw [toList_entries_add] at member
    rcases List.mem_append.mp member with old | new
    · exact consistent.placed entry old
    · obtain rfl := List.mem_singleton.mp new
      have bound := range.stop_clamp_le file.lines.size
      rw [size] at bound
      refine ⟨range.start_le_stop_clamp _, ?_, rfl⟩
      rw [Entry.placed, size]
      exact bound

theorem id_eq (consistent : file.Consistent) {n : Nat} {entry : Entry}
    (held : file.entries[n]? = some entry) : entry.id = n := by
  rw [← Array.getElem?_toList] at held
  have numbered : (file.entries.toList.map (·.id))[n]? = some entry.id := by
    rw [List.getElem?_map, held, Option.map_some]
  rw [consistent.numbered, List.getElem?_range (by
    have bound := (List.getElem?_eq_some_iff.mp held).1
    rwa [Array.length_toList] at bound)] at numbered
  exact (Option.some.inj numbered).symm

/-- The list kept for a tag leads to all entries with the tag, in order. -/
theorem withTag_eq (consistent : file.Consistent) (tag : NodeTag) :
    file.withTag tag = file.entries.toList.filter fun entry => entry.tag = tag := by
  have found : ∀ entry ∈ file.entries.toList.filter (fun entry => entry.tag = tag),
      file.entries[entry.id]? = some entry := by
    intro entry member
    obtain ⟨n, held⟩ := List.mem_iff_getElem?.mp (List.mem_of_mem_filter member)
    rw [Array.getElem?_toList] at held
    rw [consistent.id_eq held, held]
  rw [withTag, consistent.tagged, List.filterMap_map]
  exact (List.filterMap_congr found).trans List.filterMap_some

end Consistent

/-- The entry of a node. -/
def entryOfNode (lines : LineIndex) (node : SyntaxNode × NodeId) : Entry :=
  .placed lines node.2 (.treeNode node.2) node.1.kind.tag node.1.range

private theorem foldl_addNode (consistent : file.Consistent) (nodes : List SyntaxNode) :
    let added := (nodes.zipIdx file.size).foldl
      (fun file entry => file.add (.treeNode entry.2) entry.1.kind.tag entry.1.range) file
    added.Consistent ∧ file.Extends added ∧
      added.entries.toList =
        file.entries.toList ++ (nodes.zipIdx file.size).map (entryOfNode file.lines) := by
  induction nodes generalizing file with
  | nil => exact ⟨consistent, .refl file, (List.append_nil _).symm⟩
  | cons node nodes ih =>
    have first := Extends.add file (.treeNode file.size) node.kind.tag node.range
    obtain ⟨behind, grown, entries⟩ := ih (consistent.add (.treeNode file.size) node.kind.tag node.range)
    rw [size_add] at behind grown entries
    simp only [List.zipIdx_cons, List.foldl_cons, List.map_cons]
    refine ⟨behind, first.trans grown, ?_⟩
    rw [entries, toList_entries_add, List.append_assoc]
    rfl

/-- A file that was just read holds its nodes in order, and nothing else. -/
theorem ofTree_entries (uri : FileUri) (text : String) (tree : SyntaxTree)
    (errors : Array Template.SyntaxError) :
    let file := ofTree uri text tree errors
    file.Consistent ∧ file.uri = uri ∧ file.text = text ∧ file.tree = tree ∧ file.errors = errors ∧
      file.components = tree.components ∧
      file.entries.toList = tree.nodes.toList.zipIdx.map (entryOfNode (.ofText text)) := by
  let bare : TemplateFile := ⟨uri, text, .ofText text, tree, errors, #[], .empty, tree.components⟩
  have consistent : bare.Consistent := ⟨rfl, rfl, fun _ => rfl, fun _ member => (nomatch member)⟩
  obtain ⟨behind, grown, entries⟩ := foldl_addNode consistent tree.nodes.toList
  exact ⟨behind, grown.uri, grown.text, grown.tree, grown.errors, grown.components, entries⟩

/-- What can be put into a file. -/
inductive Insertion where
  | entry (content : EntryContent) (tag : NodeTag) (range : ByteRange)
  | step (step : ChainStep)

/-- The step that is put in, if it is one. -/
def Insertion.step? : Insertion → Option ChainStep
  | entry _ _ _ => none
  | step made => some made

/-- Put something in, and tell the pair of entries if it is a step. -/
def insert (file : TemplateFile) : Insertion → List (EntryId × EntryId) × TemplateFile
  | .entry content tag range => ([], file.add content tag range)
  | .step step => ([(file.attachStep step).1], (file.attachStep step).2)

/-- Put things in one after the other. -/
def insertAll (file : TemplateFile) : List Insertion → List (EntryId × EntryId) × TemplateFile
  | [] => ([], file)
  | insertion :: more =>
    let first := file.insert insertion
    let others := first.2.insertAll more
    (first.1 ++ others.1, others.2)

theorem Extends.attachStep (file : TemplateFile) (step : ChainStep) :
    Extends file (file.attachStep step).2 :=
  (Extends.add file _ _ _).trans (Extends.add _ _ _ _)

theorem Extends.insert (file : TemplateFile) (insertion : Insertion) :
    Extends file (file.insert insertion).2 := by
  cases insertion with
  | entry content tag range => exact .add file content tag range
  | step step => exact .attachStep file step

theorem Extends.insertAll (file : TemplateFile) (insertions : List Insertion) :
    Extends file (file.insertAll insertions).2 := by
  induction insertions generalizing file with
  | nil => exact .refl file
  | cons insertion more ih => exact (Extends.insert file insertion).trans (ih _)

theorem Consistent.insert (consistent : file.Consistent) (insertion : Insertion) :
    (file.insert insertion).2.Consistent := by
  cases insertion with
  | entry content tag range => exact consistent.add content tag range
  | step step => exact (consistent.add _ _ _).add _ _ _

theorem Consistent.insertAll (consistent : file.Consistent) (insertions : List Insertion) :
    (file.insertAll insertions).2.Consistent := by
  induction insertions generalizing file with
  | nil => exact consistent
  | cons insertion more ih => exact ih (consistent.insert insertion)

/-- The entries of a pair are those of a step, and each names the other. -/
def Joins (file : TemplateFile) (pair : EntryId × EntryId) (step : ChainStep) : Prop :=
  (∃ entry : Entry, file.entries[pair.1]? = some entry ∧ entry.tag = .helper ∧
    entry.content =
      .helper step.helper.identifier step.helper.cls step.helper.objectNode pair.2) ∧
  ∃ entry, file.entries[pair.2]? = some entry ∧ entry.tag = .helperMethod ∧
    entry.content = .helperMethod step.method.name step.cls step.method step.segment pair.1

theorem Joins.of_extends {after : TemplateFile} {pair : EntryId × EntryId} {step : ChainStep}
    (joins : file.Joins pair step) (grown : file.Extends after) : after.Joins pair step := by
  obtain ⟨⟨helper, first, named⟩, ⟨method, second, owned⟩⟩ := joins
  exact ⟨⟨helper, grown.getElem? first, named⟩, ⟨method, grown.getElem? second, owned⟩⟩

/-- The numbers that are told for a step are those its entries get. -/
theorem joins_attachStep (file : TemplateFile) (step : ChainStep) :
    (file.attachStep step).2.Joins (file.attachStep step).1 step := by
  let helper := EntryContent.helper step.helper.identifier step.helper.cls step.helper.objectNode
    (file.size + 1)
  let first := file.add helper .helper step.helper.range
  have pushed : first.entries[file.size]? =
      some (.placed file.lines file.size helper .helper step.helper.range) :=
    Array.getElem?_push_size
  have size : first.size = file.size + 1 := size_add ..
  constructor
  · exact ⟨_, (Extends.add first _ _ _).getElem? pushed, rfl, rfl⟩
  · let method := EntryContent.helperMethod step.method.name step.cls step.method step.segment
      file.size
    refine ⟨.placed file.lines first.size method .helperMethod step.range, ?_, rfl, rfl⟩
    change ((first.add _ _ _).entries)[file.size + 1]? = _
    rw [← size]
    exact Array.getElem?_push_size

/-- Whatever is put in, each step has its pair of entries, and later steps have later ones. -/
theorem joins_insertAll (file : TemplateFile) (insertions : List Insertion) :
    let inserted := file.insertAll insertions
    List.Forall₂ inserted.2.Joins inserted.1 (insertions.filterMap Insertion.step?) ∧
      (∀ pair ∈ inserted.1, file.size ≤ pair.1 ∧ pair.2 = pair.1 + 1) ∧
      inserted.1.Pairwise fun a b => a.2 < b.1 := by
  induction insertions generalizing file with
  | nil => exact ⟨.nil, fun _ member => (nomatch member), .nil⟩
  | cons insertion more ih =>
    obtain ⟨joins, places, apart⟩ := ih (file.insert insertion).2
    cases insertion with
    | entry content tag range =>
      refine ⟨joins, fun pair member => ?_, apart⟩
      obtain ⟨behind, next⟩ := places pair member
      have size : ((file.insert (.entry content tag range)).2).size = file.size + 1 :=
        size_add file content tag range
      exact ⟨by omega, next⟩
    | step step =>
      have size : ((file.insert (.step step)).2).size = file.size + 2 := by
        change ((file.add _ _ _).add _ _ _).size = _
        rw [size_add, size_add]
      refine ⟨.cons ?_ joins, ?_, .cons ?_ apart⟩
      · exact (joins_attachStep file step).of_extends (Extends.insertAll _ more)
      · intro pair member
        rcases List.mem_cons.mp member with rfl | member
        · exact ⟨Nat.le_refl _, rfl⟩
        · obtain ⟨behind, next⟩ := places pair member
          exact ⟨by omega, next⟩
      · intro pair member
        obtain ⟨behind, next⟩ := places pair member
        change file.size + 1 < pair.1
        omega

/-- The entry of a method that the entry of a helper names. -/
def methodOf? (file : TemplateFile) (helper : EntryId) : Option EntryId :=
  file.entries[helper]?.bind fun entry =>
    match entry.content with
    | .helper _ _ _ method => some method
    | _ => none

/-- The entry of a helper that the entry of a method names. -/
def ownerOf? (file : TemplateFile) (method : EntryId) : Option EntryId :=
  file.entries[method]?.bind fun entry =>
    match entry.content with
    | .helperMethod _ _ _ _ owner => some owner
    | _ => none

theorem Joins.named {pair : EntryId × EntryId} {step : ChainStep} (joins : file.Joins pair step) :
    file.methodOf? pair.1 = some pair.2 ∧ file.ownerOf? pair.2 = some pair.1 := by
  obtain ⟨⟨helper, first, -, named⟩, ⟨method, second, -, owned⟩⟩ := joins
  constructor
  · rw [methodOf?, first, Option.bind_some, named]
  · rw [ownerOf?, second, Option.bind_some, owned]

/-- The nodes of a template lie in its text, so their ranges are not cut. -/
theorem clamp_of_node {text : String} {n : NodeId} {node : SyntaxNode}
    (held : (parseTemplate text).tree.nodes[n]? = some node) :
    node.range.clamp (byteSize text.toList) = node.range := by
  obtain ⟨laid, lies⟩ := outline_laid text
  have nested : (parseTemplate text).tree.Nested text.toList :=
    (SyntaxTree.ofTemplate_follows (parseTemplate text).template).nested laid lies
  have range : (parseTemplate text).tree.range n = node.range := by
    rw [SyntaxTree.range, held, Option.map_some, Option.getD_some]
  have inside := nested.lies n (Array.getElem?_eq_some_iff.mp held).1
  rw [range] at inside
  exact ByteRange.clamp_eq_self inside.le inside.stop.le_size

/-- The entry of a node of the tree stands under the number of the node. -/
theorem entry_of_node {uri : FileUri} {text : String} {n : NodeId} {node : SyntaxNode}
    (held : (parseTemplate text).tree.nodes[n]? = some node) :
    ∃ entry, (ofText uri text).entries[n]? = some entry ∧ entry.content = .treeNode n ∧
      entry.tag = node.kind.tag ∧ entry.range = node.range := by
  obtain ⟨-, -, -, -, -, -, entries⟩ :=
    ofTree_entries uri text (parseTemplate text).tree (parseTemplate text).errors
  refine ⟨entryOfNode (.ofText text) (node, n), ?_, rfl, rfl, ?_⟩
  · rw [← Array.getElem?_toList] at held ⊢
    change (ofTree uri text _ _).entries.toList[n]? = _
    rw [entries, List.getElem?_map, List.getElem?_zipIdx, held, Option.map_some, Option.map_some,
      Nat.zero_add]
  · change node.range.clamp (LineIndex.ofText text).size = _
    rw [LineIndex.size_ofText, clamp_of_node held]

/-- Whatever entries and steps are put into a template that was just read, all entries are numbered by
their places; those of the nodes come first, each under the number of its node; the list of a tag has
exactly the entries with the tag, in order; and each range lies in the text, with the positions of its
ends. The two entries of a step are those whose numbers were told: they name each other, and no other
step has entries that name one of them. -/
theorem stores_agree (uri : FileUri) (text : String) (insertions : List Insertion) :
    let tree := (parseTemplate text).tree
    let pairs := ((ofText uri text).insertAll insertions).1
    let file := ((ofText uri text).insertAll insertions).2
    file.tree = tree ∧
    (∀ (n : EntryId) (entry : Entry), file.entries[n]? = some entry → entry.id = n) ∧
    (∀ (n : NodeId) (node : SyntaxNode), tree.nodes[n]? = some node → ∃ entry,
      file.entries[n]? = some entry ∧
      treeEntry? file n = some entry ∧ entry.content = .treeNode n ∧ entry.tag = node.kind.tag ∧
      entry.range = node.range) ∧
    (∀ tag, file.withTag tag = file.entries.toList.filter fun entry => entry.tag = tag) ∧
    (∀ entry ∈ file.entries, entry.range.start ≤ entry.range.stop ∧
      entry.range.stop ≤ byteSize text.toList ∧
      entry.span = (LineIndex.ofText text).span entry.range) ∧
    List.Forall₂ file.Joins pairs (insertions.filterMap Insertion.step?) ∧
    (pairs.Pairwise fun a b => a.2 < b.1) ∧
    ∀ pair ∈ pairs, ∀ other ∈ pairs,
      (file.methodOf? other.1 = some pair.2 ↔ other = pair) ∧
      (file.ownerOf? other.2 = some pair.1 ↔ other = pair) := by
  intro tree pairs file
  obtain ⟨fresh, -, written, parsed, -, -, -⟩ :=
    ofTree_entries uri text (parseTemplate text).tree (parseTemplate text).errors
  have grown : (ofText uri text).Extends file := .insertAll _ insertions
  have consistent : file.Consistent := fresh.insertAll insertions
  have whole : file.text = text := grown.text.trans written
  obtain ⟨joins, places, apart⟩ := joins_insertAll (ofText uri text) insertions
  refine ⟨grown.tree.trans parsed, fun n entry held => consistent.id_eq held, ?_,
    consistent.withTag_eq, ?_, joins, apart, ?_⟩
  · intro n node held
    obtain ⟨entry, first, content, tag, range⟩ :
        ∃ entry, (ofText uri text).entries[n]? = some entry ∧ entry.content = .treeNode n ∧
          entry.tag = node.kind.tag ∧ entry.range = node.range := entry_of_node held
    have kept := grown.getElem? first
    refine ⟨entry, kept, ?_, content, tag, range⟩
    unfold treeEntry?
    rw [kept, Option.filter_some, content]
    simp [EntryContent.treeNode?]
  · intro entry member
    obtain ⟨ordered, bound, span⟩ := consistent.placed entry (Array.mem_toList_iff.mpr member)
    rw [whole] at bound
    rw [consistent.lines, whole] at span
    exact ⟨ordered, bound, span⟩
  · intro pair member other among
    have named : ∀ pair ∈ pairs,
        file.methodOf? pair.1 = some pair.2 ∧ file.ownerOf? pair.2 = some pair.1 := by
      intro pair member
      obtain ⟨n, bound, rfl⟩ := List.mem_iff_getElem.mp member
      exact (joins.get bound (joins.length_eq ▸ bound)).named
    have next : pair.2 = pair.1 + 1 := (places pair member).2
    have other_next : other.2 = other.1 + 1 := (places other among).2
    rw [(named other among).1, (named other among).2, Option.some_inj, Option.some_inj,
      Prod.ext_iff, next, other_next]
    have same (a b : Nat) : (b + 1 = a + 1 ↔ b = a ∧ b + 1 = a + 1) ∧
        (b = a ↔ b = a ∧ b + 1 = a + 1) := by omega
    exact same pair.1 other.1

private def pairMethod : MethodDeclaration :=
  ⟨"go", "go", false, [], .unresolved, "", none, ⟨0, 0⟩, ⟨⟨0, 0⟩, ⟨0, 0⟩⟩⟩

private def pairClass : LoadedClass :=
  ⟨0, ⟨"A\\T", "A", [pairMethod], ⟨"file:///T.php"⟩, ⟨0, 0⟩, ⟨⟨0, 0⟩, ⟨0, 0⟩⟩⟩⟩

private def pairStep : ChainStep :=
  ⟨⟨"T", pairClass, ⟨6, 7⟩, 4, [3]⟩, pairClass, pairMethod, 3, ⟨8, 10⟩⟩

/-- A step, a label whose range leaves the text, and the same step again. -/
private def pairInsertions : List Insertion :=
  [.step pairStep, .entry (.label "x" 3) .label ⟨4, 99⟩, .step pairStep]

private def pairFile : List (EntryId × EntryId) × TemplateFile :=
  (ofText ⟨"file:///Root.fusion"⟩ "a = $\x7bT.go()\x7d").insertAll pairInsertions

/-- Behind nine nodes the steps get their own entries, and the label is cut to the text. -/
theorem stores_agree_twice :
    pairFile.1 = [(9, 10), (12, 13)] ∧
      pairFile.2.methodOf? 9 = some 10 ∧ pairFile.2.ownerOf? 13 = some 12 ∧
      pairFile.2.ownerOf? 13 ≠ some 9 ∧
      (pairFile.2.withTag .label).map (·.range) = [⟨4, 13⟩] := by
  obtain ⟨-, -, -, listed, -, -, -, named⟩ :=
    stores_agree ⟨"file:///Root.fusion"⟩ "a = $\x7bT.go()\x7d" pairInsertions
  have told : pairFile.1 = [(9, 10), (12, 13)] := by decide +kernel
  change ∀ pair ∈ pairFile.1, ∀ other ∈ pairFile.1, _ at named
  rw [told] at named
  have first := named (9, 10) (by simp) (9, 10) (by simp)
  have second := named (12, 13) (by simp) (12, 13) (by simp)
  have apart := named (9, 10) (by simp) (12, 13) (by simp)
  refine ⟨told, first.1.mpr rfl, second.2.mpr rfl, ?_, ?_⟩
  · exact fun same => absurd (apart.2.mp same) (by decide)
  · rw [pairFile, listed]
    decide +kernel

end TemplateFile

end FusionAtlas
