import FusionAtlas.Proofs.LookupSession
import FusionAtlas.Proofs.NodeWords
import FusionAtlas.Proofs.PlannedRanges

/-!
The text at what resolution attached. However malformed a template is, the entry of a method covers the name
in its call, that of a label covers its value between the quotes of a literal, and that of a class covers a
spelling of its name inside a string. Main statement: `TemplateFile.resolve_spansText`.
-/

set_option autoImplicit false
set_option relaxedAutoImplicit false

namespace FusionAtlas

open Attachment (inside stringText?)
open ClassLibrary (WellKeyed)
open Text (StandsAt IsBoundary byteSize)

namespace TemplateFile

/-- The text at a node. -/
def nodeText (file : TemplateFile) (node : NodeId) : List Char :=
  Text.slice file.text.toList (file.tree.range node).start (file.tree.range node).stop

/-- A node is a string, written as its value between two quotes. -/
structure Quotes (file : TemplateFile) (literal : NodeId) (value : String) : Prop where
  string : (file.tree.kind? literal).bind stringText? = some value
  text : ∃ quote, (quote = '\'' ∨ quote = '"') ∧
    file.nodeText literal = quote :: (value.toList ++ [quote])

/-- The entry covers the name at the start of its call, one of the two names of its method. -/
def CoversCall (file : TemplateFile) (entry : Entry) : Prop :=
  ∃ identifier cls method segment owner args,
    entry.content = .helperMethod identifier cls method segment owner ∧
    file.tree.kind? segment = some (.objectFunctionPathNode (file.textOf entry) args) ∧
    entry.range.start = (file.tree.range segment).start ∧
    entry.range.stop ≤ (file.tree.range segment).stop ∧
    (file.textOf entry = method.name ∨ file.textOf entry = method.propertyName)

/-- The entry covers its value, all that stands between the quotes of its literal. -/
def CoversLabel (file : TemplateFile) (entry : Entry) : Prop :=
  ∃ value literal,
    entry.content = .label value literal ∧
    file.tree.kind? literal = some (.literalString value) ∧ file.Quotes literal value ∧
    entry.range.start = (file.tree.range literal).start + 1 ∧
    entry.range.stop + 1 = (file.tree.range literal).stop ∧
    file.textOf entry = value

/-- The entry covers a spelling of the full name of its class, between the quotes of its string. -/
def CoversClass (file : TemplateFile) (entry : Entry) : Prop :=
  ∃ identifier cls literal value,
    entry.content = .classReference identifier cls literal ∧ file.Quotes literal value ∧
    (file.tree.range literal).start + 1 ≤ entry.range.start ∧
    entry.range.stop + 1 ≤ (file.tree.range literal).stop ∧
    String.ofList (ClassName.collapse (file.textOf entry).toList) = identifier ∧
    identifier = cls.declaration.fqcn

/-- The range of an entry cuts no character, and its text is what the tag of the entry promises. -/
structure SpansText (file : TemplateFile) (entry : Entry) : Prop where
  lies : entry.range.LiesIn file.text.toList
  method : entry.tag = .helperMethod → file.CoversCall entry
  label : entry.tag = .label → file.CoversLabel entry
  reference : entry.tag = .fqcn → file.CoversClass entry

end TemplateFile

section Places

variable {text value : String} {id : NodeId}

/-- The first segments of a chain start and end where nodes do, or at the start of the text. -/
theorem boundary_rangeOf (text : String) (path : List NodeId) (count : Nat) :
    let range := Chain.rangeOf (parseTemplate text).tree path count
    IsBoundary text.toList range.start ∧ IsBoundary text.toList range.stop := by
  have ends (segment : Option NodeId) :
      ((segment.map (parseTemplate text).tree.range).getD (.emptyAt 0)).LiesIn text.toList := by
    cases segment with
    | none => exact ⟨Nat.le_refl _, .zero _, .zero _⟩
    | some id => exact liesIn_range text id
  exact ⟨(ends _).start, (ends _).stop⟩

/-- Cutting a range to the text puts its ends in order, and moves none off its place. -/
theorem ByteRange.liesIn_clamp {text : List Char} {range : ByteRange}
    (start : IsBoundary text range.start) (stop : IsBoundary text range.stop) :
    (range.clamp (byteSize text)).LiesIn text := by
  have first : min range.start (byteSize text) = range.start := Nat.min_eq_left start.le_size
  have last : min range.stop (byteSize text) = range.stop := Nat.min_eq_left stop.le_size
  refine ⟨range.start_le_stop_clamp _, ?_, ?_⟩
  · rw [clamp, first]
    exact start
  · rw [clamp, first, last]
    rcases Nat.le_total range.start range.stop with le | le
    · rw [Nat.max_eq_right le]
      exact stop
    · rw [Nat.max_eq_left le]
      exact start

/-- Inside a string stands its value. -/
theorem inside_string (string : ((parseTemplate text).tree.kind? id).bind stringText? = some value) :
    let range := (parseTemplate text).tree.range id
    inside range = ⟨range.start + 1, range.start + 1 + byteSize value.toList⟩ ∧
      range.stop = range.start + 1 + byteSize value.toList + 1 ∧
      StandsAt text.toList value.toList (range.start + 1) ∧
      ∃ quote, (quote = '\'' ∨ quote = '"') ∧
        Text.slice text.toList range.start range.stop = quote :: (value.toList ++ [quote]) := by
  intro range
  obtain ⟨quote, ascii, stands, stop⟩ := parseTemplate_string string
  change range.stop = range.start + _ at stop
  have one : byteSize [quote] = 1 := by rcases ascii with rfl | rfl <;> rfl
  have size : byteSize (quote :: (value.toList ++ [quote])) = 1 + byteSize value.toList + 1 := by
    rw [← List.singleton_append, Text.byteSize_append, Text.byteSize_append, one, Nat.add_assoc]
  have ends : range.stop = range.start + 1 + byteSize value.toList + 1 := by
    rw [stop, size]
    omega
  have long : ¬range.length < 2 := by
    rw [ByteRange.length, ends]
    omega
  have between : StandsAt (quote :: (value.toList ++ [quote])) value.toList 1 :=
    ⟨[quote], [quote], rfl, one⟩
  refine ⟨?_, ends, stands.within between, quote, ascii, ?_⟩
  · rw [inside, if_neg long, ends, Nat.add_sub_cancel]
  · rw [stop]
    exact stands.slice

end Places

namespace TemplateFile

open Insertion (entriesFrom)

variable {file : TemplateFile} {text : String} {n : Nat}

/-- A file of a text, with the tree that was read from it. -/
structure Holds (file : TemplateFile) (text : String) : Prop where
  written : file.text = text
  parsed : file.tree = (parseTemplate text).tree

/-- An entry at the place of a piece of the text covers that piece. -/
theorem textOf_placed {piece : List Char} {content : EntryContent} {tag : NodeTag} {start : Nat}
    (held : file.Holds text) (stands : StandsAt text.toList piece start) :
    let entry := Entry.placed (.ofText text) n content tag ⟨start, start + byteSize piece⟩
    entry.range = ⟨start, start + byteSize piece⟩ ∧ file.textOf entry = String.ofList piece := by
  intro entry
  have range : entry.range = ⟨start, start + byteSize piece⟩ := by
    change ByteRange.clamp _ (LineIndex.ofText text).size = _
    rw [LineIndex.size_ofText]
    exact ByteRange.clamp_eq_self (Nat.le_add_right _ _) stands.stop.le_size
  refine ⟨range, ?_⟩
  rw [textOf, range, held.written, stands.slice]

theorem liesIn_placed {content : EntryContent} {tag : NodeTag} {range : ByteRange}
    (held : file.Holds text) (start : IsBoundary text.toList range.start)
    (stop : IsBoundary text.toList range.stop) :
    (Entry.placed (.ofText text) n content tag range).range.LiesIn file.text.toList := by
  change (ByteRange.clamp _ (LineIndex.ofText text).size).LiesIn _
  rw [held.written, LineIndex.size_ofText]
  exact ByteRange.liesIn_clamp start stop

/-- The entries of a step. -/
theorem spansText_step {step : ChainStep} (held : file.Holds text)
    (covers : step.Covers (parseTemplate text).tree) :
    ∀ entry ∈ Insertion.entries (.ofText text) n (.step step), file.SpansText entry := by
  obtain ⟨⟨path, count, range⟩, ⟨name, args, kind, place, answers⟩⟩ := covers
  obtain ⟨stands, fits⟩ := parseTemplate_call kind
  refine List.forall_mem_cons.mpr ⟨⟨?_, nofun, nofun, nofun⟩, List.forall_mem_singleton.mpr ?_⟩
  · obtain ⟨start, stop⟩ := boundary_rangeOf text path count
    rw [range]
    exact liesIn_placed held start stop
  · rw [place]
    obtain ⟨covered, written⟩ := textOf_placed held stands
    refine ⟨liesIn_placed held stands.start stands.stop, fun _ => ?_, nofun, nofun⟩
    rw [String.ofList_toList] at written
    simp only [MethodDeclaration.answersTo, Bool.or_eq_true, beq_iff_eq] at answers
    refine ⟨_, _, _, _, _, args, rfl, ?_, ?_, ?_, ?_⟩
    · rw [held.parsed, written]
      exact kind
    · rw [held.parsed, covered]
    · rw [held.parsed, covered]
      exact fits
    · rw [written]
      exact answers.imp Eq.symm Eq.symm

theorem Holds.quotes {literal : NodeId} {value : String} (held : file.Holds text)
    (string : ((parseTemplate text).tree.kind? literal).bind stringText? = some value) :
    file.Quotes literal value := by
  obtain ⟨-, -, -, quoted⟩ := inside_string string
  refine ⟨?_, ?_⟩
  · rw [held.parsed]
    exact string
  · rw [nodeText, held.written, held.parsed]
    exact quoted

/-- An entry for a class whose name is spelled in a string. -/
theorem spansText_class {cls : LoadedClass} {literal : NodeId} {value : String} {offset : Nat}
    {name : List Char} (held : file.Holds text)
    (string : ((parseTemplate text).tree.kind? literal).bind stringText? = some value)
    (stands : StandsAt value.toList name offset)
    (spells : ClassName.collapse name = cls.declaration.fqcn.toList) :
    let start := (inside ((parseTemplate text).tree.range literal)).start + offset
    file.SpansText (.placed (.ofText text) n (.classReference cls.declaration.fqcn cls literal) .fqcn
      ⟨start, start + byteSize name⟩) := by
  obtain ⟨within, stop, standsValue, -⟩ := inside_string string
  rw [within]
  dsimp only
  have standsName := standsValue.within stands
  have size : offset + byteSize name ≤ byteSize value.toList := stands.stop.le_size
  obtain ⟨covered, written⟩ := textOf_placed held standsName
  refine ⟨liesIn_placed held standsName.start standsName.stop, nofun, nofun, fun _ => ?_⟩
  refine ⟨_, cls, literal, value, rfl, held.quotes string, ?_, ?_, ?_, rfl⟩
  · rw [held.parsed, covered]
    exact Nat.le_add_right _ _
  · rw [held.parsed, covered, stop]
    dsimp only
    omega
  · rw [written, String.toList_ofList, spells, String.ofList_toList]

/-- The entry of a label or of a reference to a class. -/
theorem spansText_attachment {attachment : Attachment} (held : file.Holds text)
    (covers : attachment.Covers (parseTemplate text).tree) :
    file.SpansText (.placed (.ofText text) n attachment.content attachment.tag attachment.range) := by
  cases covers with
  | @label value literal kind =>
    have string : ((parseTemplate text).tree.kind? literal).bind stringText? = some value := by
      rw [kind]
      rfl
    obtain ⟨within, stop, stands, -⟩ := inside_string string
    dsimp only
    rw [within]
    obtain ⟨covered, written⟩ := textOf_placed held stands
    refine ⟨liesIn_placed held stands.start stands.stop, nofun, fun _ => ?_, nofun⟩
    refine ⟨value, literal, rfl, ?_, held.quotes string, ?_, ?_, ?_⟩
    · rw [held.parsed]
      exact kind
    · rw [held.parsed, covered]
    · rw [held.parsed, covered, stop]
    · rw [written, String.ofList_toList]
  | @whole value literal cls string spells =>
    obtain ⟨within, -⟩ := inside_string string
    have whole : StandsAt value.toList value.toList 0 := ⟨[], [], (List.append_nil _).symm, rfl⟩
    have spans : file.SpansText (.placed (.ofText text) n _ _ _) :=
      spansText_class held string whole spells
    rw [within] at spans
    dsimp only
    rw [within]
    exact spans
  | part string stands spells => exact spansText_class held string stands spells

theorem exists_of_mem_entriesFrom {lines : LineIndex} {insertions : List Insertion} {entry : Entry}
    (member : entry ∈ entriesFrom lines n insertions) :
    ∃ insertion ∈ insertions, ∃ m, entry ∈ insertion.entries lines m := by
  induction insertions generalizing n with
  | nil => cases member
  | cons insertion more ih =>
    rcases List.mem_append.mp member with here | behind
    · exact ⟨insertion, List.mem_cons_self, n, here⟩
    · obtain ⟨other, listed, m, made⟩ := ih behind
      exact ⟨other, List.mem_cons_of_mem _ listed, m, made⟩

/-- What is put in covers what it should, if it is made from the tree of the text. -/
theorem spansText_entriesFrom {insertions : List Insertion} (held : file.Holds text)
    (covers : ∀ insertion ∈ insertions, insertion.Covers (parseTemplate text).tree) :
    ∀ entry ∈ entriesFrom (.ofText text) n insertions, file.SpansText entry := by
  intro entry member
  obtain ⟨insertion, listed, m, made⟩ := exists_of_mem_entriesFrom member
  have covered := covers insertion listed
  cases insertion with
  | step step => exact spansText_step held covered entry made
  | entry content tag range =>
    obtain rfl := List.mem_singleton.mp made
    exact spansText_attachment held covered

/-- The file of a text that is resolved, whatever the helpers are and whatever was done with the library of
classes before: each entry that resolution attached has a range that cuts no character. That of a method
covers the name at the start of its call, arguments excluded, which is a name of the method; that of a label
covers its value, the text between the quotes of the literal; that of a class covers, between the quotes of a
string, a spelling of the full name of the class. -/
theorem resolve_spansText {directories : List ClassDirectory}
    (fresh : ∀ directory ∈ directories, directory.classes = []) (first : Disk)
    (actions : List ClassLibrary.Action) (uri : FileUri) (text : String) (helpers : BoundHelpers)
    (disk : Disk) :
    let library := ((ClassLibrary.Session.start directories first).run actions).library
    let resolved := (((ofText uri text).resolve helpers disk).run library).1.file
    resolved.text = text ∧ ∀ entry ∈ resolved.synthetic, resolved.SpansText entry := by
  intro library resolved
  let tree := (parseTemplate text).tree
  let file := ofTree uri text tree (parseTemplate text).errors
  let behind := ((file.resolve helpers disk).run library).2
  obtain ⟨consistent, -, same, parsed, -, -, nodes⟩ :=
    ofTree_entries uri text tree (parseTemplate text).errors
  obtain ⟨extends', entries, -⟩ :=
    resolve_appends uri text tree (parseTemplate text).errors helpers disk library
  have lines : file.lines = .ofText text := by
    rw [consistent.lines, same]
  have held : resolved.Holds text := ⟨extends'.text.trans same, extends'.tree.trans parsed⟩
  have keyed : WellKeyed behind :=
    (ClassLibrary.Session.wellKeyed_run fresh first actions).of_grows
      ((resolve_inStep helpers disk file).grows library)
  refine ⟨held.written, fun entry member => ?_⟩
  obtain ⟨listed, attached⟩ := List.mem_filter.mp member
  change entry ∈ (((file.resolve helpers disk).run library).1.file).entries.toList at listed
  rw [entries] at listed
  rcases List.mem_append.mp listed with node | planned
  · -- The entries of nodes are none that resolution attached.
    rw [nodes] at node
    obtain ⟨numbered, -, rfl⟩ := List.mem_map.mp node
    rw [entryOfNode, Entry.placed, NodeKind.isSynthetic_tag] at attached
    cases attached
  · rw [lines] at planned
    exact spansText_entriesFrom held (covers_of_planned keyed) entry planned

private def dialDisk : Disk :=
  ⟨.directory [(Text.Utf8.encode "src".toList, .directory
    [(Text.Utf8.encode "Dial.php".toList, .file (Text.Utf8.encode
        "<?php\nnamespace Acme;\nclass Dial \x7b public function getLevel() \x7b\x7d \x7d\n".toList)),
      (Text.Utf8.encode "Names.php".toList, .file (Text.Utf8.encode
        "<?php\nnamespace Acme;\nclass Names \x7b public function translate() \x7b\x7d \x7d\n".toList))])]⟩

private def dialRoots : List ClassDirectory := [.make "Acme" (.ofString "/src")]

private def dialHelpers : BoundHelpers :=
  (BoundHelpers.empty.bind "Dial" "Acme\\Dial").bind "I18n" "Acme\\Names"

/-- Letters of two bytes, a doubled backslash, a filter, and a call that is never closed. -/
private def dialText : String :=
  "é\n@class='\\\\Acme\\\\Dial'\nb='[instanceof \\Acme\\Dial]'\n" ++
    "c=$\x7bI18n.translate('ü')\x7d\nd=$\x7bDial.level('ß'"

private def dialResolved : Resolving × ClassLibrary :=
  ((ofText ⟨"file:///Root.fusion"⟩ dialText).resolve dialHelpers dialDisk).run
    ((ClassLibrary.Session.start dialRoots dialDisk).run [.ask (.anywhere "Acme\\Dial")]).library

/-- Entries of every kind, each with the text it covers. -/
theorem resolve_spansText_dial :
    let file := dialResolved.1.file
    (∀ directory ∈ dialRoots, directory.classes = []) ∧
    file.synthetic.map (fun entry => (entry.tag, file.textOf entry)) =
      [(.helper, "I18n"), (.helperMethod, "translate"), (.label, "ü"), (.helper, "Dial"),
        (.helperMethod, "level"), (.fqcn, "\\\\Acme\\\\Dial"), (.fqcn, "\\Acme\\Dial")] ∧
    ∀ entry ∈ file.synthetic, file.SpansText entry := by
  have fresh : ∀ directory ∈ dialRoots, directory.classes = [] := by decide +kernel
  obtain ⟨-, spans⟩ := resolve_spansText fresh dialDisk [.ask (.anywhere "Acme\\Dial")]
    ⟨"file:///Root.fusion"⟩ dialText dialHelpers dialDisk
  exact ⟨fresh, by decide +kernel, spans⟩

end TemplateFile

end FusionAtlas
