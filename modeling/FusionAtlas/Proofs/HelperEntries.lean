import FusionAtlas.Proofs.AnnotatedText
import FusionAtlas.Proofs.LongestMatch
import FusionAtlas.Proofs.QuotedNodes

/-!
What the entry of a helper covers: the segments of its chain that make its identifier, from the start of the
first to the end of the last. Without blanks and comments that is the identifier, unless one of the segments
is a call, whose parenthesis is then covered as well. Main statement: `TemplateFile.resolve_helperEntries`.
-/

set_option autoImplicit false
set_option relaxedAutoImplicit false

namespace FusionAtlas

open Text (StandsAt IsBoundary byteSize)

section Links

variable {link follows : ChainLink} {first others : List ChainLink} {ts : List Token}

namespace ChainLink

/-- The names of links with dots between. -/
def dotted (links : List ChainLink) : List Char := ['.'].intercalate (links.map (·.name.toList))

theorem dotted_cons_cons :
    dotted (link :: follows :: others) = link.name.toList ++ '.' :: dotted (follows :: others) := by
  simp only [dotted, List.map_cons, List.intercalate_cons_cons, List.append_assoc, List.singleton_append]

namespace Lead

/-- Behind a name that is not the last, a dot leads to the next link. -/
theorem behind_dot (lead : Lead (link :: follows :: others) ts) (plain : link.isCall = false) :
    ∃ word dot behind, ts = word :: dot :: behind ∧ dot.kind = .dot ∧
      link = ⟨word.range, word.text, false⟩ ∧ Lead (follows :: others) behind := by
  cases lead with
  | name ident between behind => exact ⟨_, _, _, rfl, between, rfl, behind⟩
  | call => cases plain

/-- The first links, if none is a call, are written by the first tokens. -/
theorem written_first (lead : Lead (link :: (first ++ others)) ts)
    (dots : ∀ t ∈ ts, t.kind = .dot → t.text.toList = ['.'])
    (plain : ∀ l ∈ link :: first, l.isCall = false) :
    ∃ front last behind, ts = front ++ last :: behind ∧
      Token.written (front ++ [last]) = dotted (link :: first) ∧
      (first.getLast?.getD link).range.stop = last.stop := by
  induction first generalizing link ts with
  | nil =>
    obtain ⟨word, behind, rfl, -, rfl⟩ := lead.plain (plain link List.mem_cons_self)
    exact ⟨[], word, behind, rfl, by simp [Token.written, dotted], rfl⟩
  | cons follows first ih =>
    obtain ⟨name, names⟩ := List.forall_mem_cons.mp plain
    obtain ⟨word, dot, behind, rfl, between, rfl, later⟩ := lead.behind_dot name
    obtain ⟨-, sign, others⟩ := by simpa only [List.forall_mem_cons] using dots
    obtain ⟨front, last, rest, rfl, written, stop⟩ := ih later others names
    refine ⟨word :: dot :: front, last, rest, rfl, ?_, ?_⟩
    · rw [List.cons_append, List.cons_append, Token.written_cons, Token.written_cons, written,
        sign between, dotted_cons_cons]
      rfl
    · rw [List.getLast?_cons, Option.getD_some]
      exact stop

/-- If one of the first links is a call, a parenthesis opens before the end of one. -/
theorem exists_opening (lead : Lead (first ++ others) ts) (call : ∃ l ∈ first, l.isCall = true) :
    ∃ opening ∈ ts, opening.kind = .leftParen ∧ ∃ l ∈ first, opening.stop ≤ l.range.stop := by
  obtain ⟨called, listed, isCall⟩ := call
  induction first generalizing ts with
  | nil => cases listed
  | cons link first ih =>
    cases kind : link.isCall with
    | true =>
      obtain ⟨word, opening, behind, rfl, -, -, -, opens, inside⟩ := lead.opened kind
      exact ⟨opening, List.mem_cons_of_mem _ List.mem_cons_self, opens, link, List.mem_cons_self, inside⟩
    | false =>
      have later : called ∈ first := (List.mem_cons.mp listed).resolve_left fun same => by
        rw [same, kind] at isCall
        cases isCall
      obtain ⟨follows, first, rfl⟩ := List.exists_cons_of_ne_nil (List.ne_nil_of_mem later)
      obtain ⟨word, dot, behind, rfl, -, -, rest⟩ := lead.behind_dot kind
      obtain ⟨opening, member, opens, l, among, inside⟩ := ih rest later
      exact ⟨opening, List.mem_cons_of_mem _ (List.mem_cons_of_mem _ member), opens, l,
        List.mem_cons_of_mem _ among, inside⟩

/-- The first of the tokens is where the first link starts. -/
theorem start {t : Token} (lead : Lead (link :: others) (t :: ts)) : link.range.start = t.start := by
  cases lead <;> rfl

end Lead

end ChainLink

end Links

namespace SyntaxTree

variable {tree : SyntaxTree} {segment : NodeId}

theorem range_linkAt (tree : SyntaxTree) (segment : NodeId) :
    (tree.linkAt segment).range = tree.range segment := by
  unfold linkAt
  split <;> rfl

theorem name_linkAt {name : String} (named : (tree.kind? segment).bind NodeKind.chainValue? = some name) :
    (tree.linkAt segment).name = name := by
  obtain ⟨kind, here, value⟩ := Option.bind_eq_some_iff.mp named
  rw [linkAt, here]
  cases kind <;> cases value <;> rfl

end SyntaxTree

section Chains

variable {text : String} {objectNode segment : NodeId} {inner others : List NodeId}

/-- The names in a chain consist of letters, digits and underscores. -/
theorem continuesIdent_linkAt (text : String) (segment : NodeId) :
    ∀ c ∈ ((parseTemplate text).tree.linkAt segment).name.toList,
      Token.Lexer.continuesIdent c = true := by
  let tree := (parseTemplate text).tree
  have read {range : ByteRange} {name : String} {isCall : Bool}
      (said : tree.word? segment = some (.links range [⟨range, name, isCall⟩])) :
      ∀ c ∈ name.toList, Token.Lexer.continuesIdent c = true := by
    obtain ⟨t, ts, suffix, -, lead⟩ := readFrom_of_node said
    obtain ⟨ident, rfl⟩ : t.kind = .ident ∧ name = t.text := by cases lead <;> exact ⟨‹_›, rfl⟩
    exact continuesIdent_significant (suffix.subset List.mem_cons_self) (.inl ident)
  unfold SyntaxTree.linkAt
  split
  · next name here => exact read (by rw [SyntaxTree.word?, here]; rfl)
  · next name args here => exact read (by rw [SyntaxTree.word?, here]; rfl)
  · exact List.forall_mem_nil _

/-- No parenthesis is among the names in a chain. -/
theorem not_mem_dotted (text : String) (segments : List NodeId) :
    '(' ∉ ChainLink.dotted (segments.map (parseTemplate text).tree.linkAt) := by
  have name (segment : NodeId) : '(' ∉ ((parseTemplate text).tree.linkAt segment).name.toList :=
    fun member => by cases continuesIdent_linkAt text segment _ member
  induction segments with
  | nil => exact nofun
  | cons segment segments ih =>
    cases segments with
    | nil => simpa [ChainLink.dotted] using name segment
    | cons =>
      rw [List.map_cons, List.map_cons, ChainLink.dotted_cons_cons, List.mem_append]
      rintro (member | member)
      · exact name segment member
      · rcases List.mem_cons.mp member with same | later
        · cases same
        · exact ih later

/-- The bytes of segments of a chain up to some one. -/
def segmentsRange (tree : SyntaxTree) (segment : NodeId) (inner : List NodeId) : ByteRange :=
  ⟨(tree.range segment).start, (tree.range (inner.getLast?.getD segment)).stop⟩

/-- Segments of a chain end before the last of them does. -/
theorem stop_le_last {tree : SyntaxTree} (lies : ∀ id, (tree.range id).start ≤ (tree.range id).stop)
    (apart : (segment :: inner).Pairwise fun a b => (tree.range a).Before (tree.range b)) :
    ∀ s ∈ segment :: inner, (tree.range s).stop ≤ (segmentsRange tree segment inner).stop := by
  intro s member
  rcases List.eq_nil_or_concat' inner with rfl | ⟨front, last, rfl⟩
  · obtain rfl := List.mem_singleton.mp member
    exact Nat.le_refl _
  · rw [segmentsRange, List.getLast?_concat, Option.getD_some]
    rw [← List.cons_append] at member apart
    rcases List.mem_append.mp member with before | here
    · have between := (List.pairwise_append.mp apart).2.2 s before last (List.mem_singleton_self _)
      exact Nat.le_trans between (lies last)
    · obtain rfl := List.mem_singleton.mp here
      exact Nat.le_refl _

/-- Without blanks and comments, the text of the first segments of a chain is their names with dots between,
unless one of them is a call. -/
theorem written_segments
    (here : (parseTemplate text).tree.kind? objectNode =
      some (.objectNode (segment :: (inner ++ others)))) :
    let tree := (parseTemplate text).tree
    let range := segmentsRange tree segment inner
    range.start = (tree.range objectNode).start ∧ range.start ≤ range.stop ∧
      (Token.written (tokensWithin text range) =
          ChainLink.dotted ((segment :: inner).map tree.linkAt) ↔
        ∀ s ∈ segment :: inner, (tree.linkAt s).isCall = false) := by
  intro tree range
  have said : tree.word? objectNode = some (.links (tree.range objectNode)
      (tree.linkAt segment :: (inner.map tree.linkAt ++ others.map tree.linkAt))) := by
    rw [SyntaxTree.word?, here, ← List.map_append]
    rfl
  obtain ⟨t, ts, suffix, start, lead⟩ := readFrom_of_node said
  have first : range.start = t.start := by
    rw [← lead.start, SyntaxTree.range_linkAt]
    rfl
  have lies (id : NodeId) : (tree.range id).start ≤ (tree.range id).stop := (liesIn_range text id).le
  have apart : (segment :: inner).Pairwise fun a b => (tree.range a).Before (tree.range b) := by
    have ordered := (parseTemplate_nested text).1.ordered objectNode
    rw [SyntaxTree.children, here] at ordered
    exact ordered.sublist (List.sublist_append_left (segment :: inner) others)
  refine ⟨first.trans start.symm, ?_, ?_⟩
  · exact Nat.le_trans (lies segment) (stop_le_last lies apart segment List.mem_cons_self)
  have within (u : Token) (member : u ∈ t :: ts) : range.start ≤ u.start := by
    rw [first]
    exact start_le_of_suffix suffix u member
  constructor
  · intro same s member
    rw [← Bool.not_eq_true]
    intro call
    have calls : ∃ l ∈ (segment :: inner).map tree.linkAt, l.isCall = true :=
      ⟨_, List.mem_map_of_mem member, call⟩
    obtain ⟨opening, listed, opens, l, among, inside⟩ := ChainLink.Lead.exists_opening lead calls
    obtain ⟨ends, named, rfl⟩ := List.mem_map.mp among
    rw [SyntaxTree.range_linkAt] at inside
    have covered : opening ∈ tokensWithin text range :=
      List.mem_filter.mpr ⟨suffix.subset listed, decide_eq_true
        ⟨within opening listed, Nat.le_trans inside (stop_le_last lies apart ends named)⟩⟩
    refine not_mem_dotted text (segment :: inner) (same ▸ List.mem_flatMap.mpr ⟨opening, covered, ?_⟩)
    rw [symbol_significant (suffix.subset listed) (by rw [opens]; rfl)]
    exact List.mem_singleton_self _
  · intro plain
    have dots : ∀ u ∈ t :: ts, u.kind = .dot → u.text.toList = ['.'] := fun u member dot =>
      symbol_significant (suffix.subset member) (by rw [dot]; rfl)
    have names : ∀ l ∈ (segment :: inner).map tree.linkAt, l.isCall = false :=
      List.forall_mem_map.mpr plain
    obtain ⟨front, last, behind, split, written, stop⟩ := lead.written_first dots names
    rw [List.getLast?_map, Option.getD_map, SyntaxTree.range_linkAt] at stop
    have ends : range = ⟨t.start, last.stop⟩ := by
      rw [← first, ← stop]
      rfl
    rw [ends, tokensWithin_of_split suffix split, written]
    rfl

end Chains

section Starts

variable {tree : SyntaxTree} {helpers : BoundHelpers} {disk : Disk} {objectNode : NodeId}
  {library started : ClassLibrary} {helper : ChainStart}

/-- The first parts of a chain are the names of its first segments. -/
theorem Chain.take_parts {path : List NodeId} {count : Nat} (le : count ≤ (parts tree path).length) :
    (parts tree path).take count = (path.take count).map fun segment => (tree.linkAt segment).name := by
  induction path generalizing count with
  | nil =>
    obtain rfl := Nat.le_zero.mp le
    rfl
  | cons segment path ih =>
    cases named : (tree.kind? segment).bind NodeKind.chainValue? with
    | none =>
      have empty : parts tree (segment :: path) = [] := by
        rw [parts, List.map_cons, named]
        rfl
      rw [empty] at le ⊢
      obtain rfl := Nat.le_zero.mp le
      rfl
    | some name =>
      have first : parts tree (segment :: path) = name :: parts tree path := by
        rw [parts, List.map_cons, named]
        rfl
      rw [first] at le ⊢
      cases count with
      | zero => rfl
      | succ count =>
        rw [List.take_succ_cons, List.take_succ_cons, List.map_cons, SyntaxTree.name_linkAt named,
          ih (Nat.le_of_succ_le_succ le)]

/-- What a chain starts with is bound to a class by the name that its first segments make. -/
theorem Chain.helperOf_eq_ok {parts : List String} {consumed : Nat} {identifier fqcn : String}
    (found : helperOf helpers parts = .ok (consumed, identifier, fqcn)) :
    1 ≤ consumed ∧ consumed ≤ parts.length ∧ identifier = BoundHelpers.joined parts consumed ∧
      helpers.get? identifier = some (.className fqcn) := by
  unfold helperOf at found
  split at found
  · cases found
  · next matched longest =>
    split at found
    · next binding =>
      cases found
      obtain ⟨⟨low, high⟩, -, named, bound⟩ := BoundHelpers.matchDown?_eq_some_iff.mp longest
      rw [named, ← binding]
      exact ⟨low, Nat.le_trans high (Nat.min_le_left _ _), rfl, bound⟩
    · cases found
    · cases found

/-- A helper is named by segments at the start of its chain, and covers them. -/
structure Chain.Names (tree : SyntaxTree) (helpers : BoundHelpers) (helper : ChainStart) : Prop where
  bound : ∃ fqcn, helpers.get? helper.identifier = some (.className fqcn)
  segments : ∃ segment inner others,
    tree.kind? helper.objectNode = some (.objectNode (segment :: (inner ++ others))) ∧
      helper.identifier.toList = ChainLink.dotted ((segment :: inner).map tree.linkAt) ∧
      helper.range = segmentsRange tree segment inner

theorem Chain.names_of_start
    (begun : (start tree helpers disk objectNode).run library = (.ok helper, started)) :
    Names tree helpers helper := by
  unfold start at begun
  split at begun
  · next path kind =>
    split at begun
    · cases begun
    · split at begun
      · cases begun
      · next consumed identifier fqcn found =>
        obtain ⟨low, high, named, bound⟩ := helperOf_eq_ok found
        rw [LookupProgram.run_bind] at begun
        split at begun
        · cases begun
        · cases begun
          obtain ⟨count, rfl⟩ := Nat.exists_eq_add_of_le' low
          refine ⟨⟨fqcn, bound⟩, ?_⟩
          cases path with
          | nil => cases high
          | cons segment path =>
            refine ⟨segment, path.take count, path.drop count, ?_, ?_, ?_⟩
            · rw [List.take_append_drop]
              exact kind
            · change identifier.toList = _
              rw [named, BoundHelpers.joined, String.toList_intercalate, take_parts high, List.map_map,
                ChainLink.dotted, List.map_map]
              rfl
            · change rangeOf tree (segment :: path) (count + 1) = _
              rw [rangeOf, List.take_succ_cons, List.getLast?_cons]
              rfl
  · cases begun

theorem ChainPass.helper_of_mem_reference {find : String → Option LoadedClass} (segments : List NodeId) :
    ∀ step ∈ reference tree find helper segments, step.helper = helper := by
  refine List.foldlRecOn (motive := fun pass : ChainPass => ∀ step ∈ pass.steps, step.helper = helper)
    segments _ (List.forall_mem_nil _) ?_
  intro pass same segment _
  unfold visit
  split
  · split
    · exact List.forall_mem_append.mpr ⟨same, List.forall_mem_singleton.mpr rfl⟩
    · exact same
  · exact same

theorem ResolutionPlan.names_of_walk :
    ∀ step ∈ walk helpers tree disk library objectNode, Chain.Names tree helpers step.helper := by
  unfold walk
  rcases begun : (Chain.start tree helpers disk objectNode).run library with ⟨abort | helper, started⟩
  · rw [Chain.follow, LookupProgram.run_bind, begun]
    exact List.forall_mem_nil _
  · obtain ⟨made, final, path, consumed, fqcn, followed, -, -, -, reference, -⟩ :=
      Chain.follow_eq_reference begun
    rw [followed]
    change ∀ step ∈ made, Chain.Names tree helpers step.helper
    rw [reference]
    intro step member
    rw [ChainPass.helper_of_mem_reference _ step member]
    exact Chain.names_of_start begun

theorem names_of_planned {step : ChainStep}
    (planned : .step step ∈ resolutionPlan helpers tree disk library) :
    Chain.Names tree helpers step.helper := by
  have attached {found : List Attachment} :
      .step step ∉ found.map TemplateFile.Insertion.ofAttachment := fun member => by
    obtain ⟨attachment, -, same⟩ := List.mem_map.mp member
    cases same
  rcases List.mem_append.mp planned with chains | others
  · unfold ResolutionPlan.ofChains at chains
    split at chains
    · cases chains
    · obtain ⟨objectNode, -, walked⟩ := List.mem_flatMap.mp chains
      obtain ⟨other, member, here⟩ := List.mem_flatMap.mp walked
      rcases List.mem_cons.mp here with same | attachment
      · cases same
        exact ResolutionPlan.names_of_walk step member
      · exact absurd attachment attached
  · rcases List.mem_append.mp others with here | here <;>
    · obtain ⟨node, -, member⟩ := List.mem_flatMap.mp here
      exact absurd member attached

end Starts

namespace TemplateFile

variable {file : TemplateFile} {text : String} {helpers : BoundHelpers} {n : Nat}

/-- The entry names a helper that is bound to a class, and covers the first segments of a chain, the names of
which make its identifier. Without blanks and comments its text is the identifier exactly if no segment that
it covers is a call. -/
def CoversHelper (file : TemplateFile) (helpers : BoundHelpers) (entry : Entry) : Prop :=
  ∃ identifier cls objectNode method segment inner others,
    entry.content = .helper identifier cls objectNode method ∧
    (∃ fqcn, helpers.get? identifier = some (.className fqcn)) ∧
    file.tree.kind? objectNode = some (.objectNode (segment :: (inner ++ others))) ∧
    identifier.toList = ChainLink.dotted ((segment :: inner).map file.tree.linkAt) ∧
    entry.range.start = (file.tree.range objectNode).start ∧
    entry.range.stop = (file.tree.range (inner.getLast?.getD segment)).stop ∧
    (Token.written (tokensWithin file.text entry.range) = identifier.toList ↔
      ∀ s ∈ segment :: inner, (file.tree.linkAt s).isCall = false)

theorem coversHelper_placed {helper : ChainStart} (held : file.Holds text) (method : EntryId)
    (names : Chain.Names (parseTemplate text).tree helpers helper) :
    file.CoversHelper helpers (.placed (.ofText text) n
      (.helper helper.identifier helper.cls helper.objectNode method) .helper helper.range) := by
  obtain ⟨bound, segment, inner, others, kind, named, range⟩ := names
  obtain ⟨start, le, written⟩ := written_segments kind
  have stop := (liesIn_range text (inner.getLast?.getD segment)).stop.le_size
  have covered (content : EntryContent) :
      (Entry.placed (.ofText text) n content .helper helper.range).range =
        segmentsRange (parseTemplate text).tree segment inner := by
    change helper.range.clamp (LineIndex.ofText text).size = _
    rw [LineIndex.size_ofText, range]
    exact ByteRange.clamp_eq_self le stop
  refine ⟨_, _, _, _, segment, inner, others, rfl, bound, ?_⟩
  rw [held.parsed, held.written, covered, named]
  exact ⟨kind, rfl, start, rfl, written⟩

/-- The file of a text that is resolved, whatever the helpers and the library of classes are: each entry of a
helper starts where the chain starts that it stands in, and ends with the last segment that the identifier of
the helper is made of. Without blanks and comments that is the identifier, unless one of these segments is a
call. -/
theorem resolve_helperEntries (uri : FileUri) (text : String) (helpers : BoundHelpers) (disk : Disk)
    (library : ClassLibrary) :
    let resolved := (((ofText uri text).resolve helpers disk).run library).1.file
    ∀ entry ∈ resolved.entries.toList, entry.tag = .helper → resolved.CoversHelper helpers entry := by
  intro resolved entry member tagged
  let tree := (parseTemplate text).tree
  obtain ⟨consistent, -, same, parsed, -, -, nodes⟩ :=
    ofTree_entries uri text tree (parseTemplate text).errors
  obtain ⟨extends', entries, annotates, -⟩ :=
    resolve_appends uri text tree (parseTemplate text).errors helpers disk library
  have held : resolved.Holds text := ⟨extends'.text.trans same, extends'.tree.trans parsed⟩
  change entry ∈ (((ofTree uri text tree (parseTemplate text).errors).resolve helpers disk).run
    library).1.file.entries.toList at member
  rw [entries] at member
  rcases List.mem_append.mp member with node | planned
  · -- The entries of nodes are none that resolution attached.
    rw [nodes] at node
    obtain ⟨numbered, -, rfl⟩ := List.mem_map.mp node
    have plain := numbered.1.kind.isSynthetic_tag
    rw [show numbered.1.kind.tag = .helper from tagged] at plain
    cases plain
  · obtain ⟨insertion, listed, m, made⟩ := exists_of_mem_entriesFrom planned
    rw [consistent.lines, same] at made
    cases insertion with
    | step step =>
      rcases List.mem_cons.mp made with rfl | method
      · exact coversHelper_placed held (m + 1) (names_of_planned listed)
      · obtain rfl := List.mem_singleton.mp method
        cases tagged
    | entry content tag range =>
      obtain rfl := List.mem_singleton.mp made
      obtain rfl : tag = .helper := tagged
      rcases annotates content .helper range listed with ⟨_, _, -, other⟩ | ⟨_, _, _, -, other⟩ <;>
      cases other

private def siteDisk : Disk :=
  ⟨.directory [(Text.Utf8.encode "src".toList, .directory
    [(Text.Utf8.encode "Node.php".toList, .file (Text.Utf8.encode
        "<?php\nnamespace Acme;\nclass Node \x7b public function label() \x7b\x7d \x7d\n".toList))])]⟩

private def siteHelpers : BoundHelpers := BoundHelpers.empty.bind "Site.node" "Acme\\Node"

private def siteFile (text : String) : TemplateFile :=
  (((ofText ⟨"file:///Root.fusion"⟩ text).resolve siteHelpers siteDisk).run
    (.make [.make "Acme" (.ofString "/src")])).1.file

private def helperName? : EntryContent → Option String
  | .helper identifier _ _ _ => some identifier
  | _ => none

/-- Each helper that resolution found, with the text of its entry, blanks and comments left out. -/
private def siteTexts (text : String) : List (Option String × String) :=
  ((siteFile text).entries.toList.filter (·.tag = .helper)).map fun entry =>
    (helperName? entry.content, String.ofList (Token.written (tokensWithin text entry.range)))

/-- A comment between the parts of an identifier, and an identifier with a call in it. -/
theorem resolve_helperEntries_site :
    let text := "a = $\x7bSite. /* ü */ node.label() + Site.node('ü').label()\x7d"
    siteTexts text = [(some "Site.node", "Site.node"), (some "Site.node", "Site.node('ü')")] ∧
      ∀ entry ∈ (siteFile text).entries.toList, entry.tag = .helper →
        (siteFile text).CoversHelper siteHelpers entry :=
  ⟨by decide +kernel, resolve_helperEntries ⟨"file:///Root.fusion"⟩ _ siteHelpers siteDisk _⟩

/-- The arguments of a call that names the helper belong to its entry. -/
theorem called_helper_covered :
    let text := "a = $\x7bSite.node(1).label()\x7d"
    ∃ entry ∈ (siteFile text).entries.toList, ∃ cls objectNode method,
      entry.content = .helper "Site.node" cls objectNode method ∧
        Token.written (tokensWithin text entry.range) = "Site.node(1)".toList := by
  intro text
  have found : ∃ entry ∈ (siteFile text).entries.toList, helperName? entry.content = some "Site.node" ∧
      Token.written (tokensWithin text entry.range) = "Site.node(1)".toList := by decide +kernel
  obtain ⟨entry, member, named, written⟩ := found
  generalize same : entry.content = content at named
  cases content <;> cases named
  exact ⟨entry, member, _, _, _, same, written⟩

end TemplateFile

end FusionAtlas
