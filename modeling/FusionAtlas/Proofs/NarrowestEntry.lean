import FusionAtlas.Proofs.EntryStore
import Mathlib.Data.List.Induction

/-!
The entry at a position. Of the entries that touch the place a position stands for, the shortest one is
told, and of equally short ones the last, so that what resolution attaches hides the node it was attached
to. Main statements: `TemplateFile.entryAtOffset?_eq_some_iff` and `TemplateFile.entryAt?_narrowest`.
-/

set_option autoImplicit false
set_option relaxedAutoImplicit false

namespace FusionAtlas

open FusionAtlas.Text (afterLast byteSize)

/-- The lines are what stands between newlines. -/
theorem LineIndex.getElem?_splitOn {text : String} {number : Nat} {content : List Char}
    (listed : (text.toList.splitOn '\n')[number]? = some content) :
    ∃ line, (LineIndex.ofText text).lines[number]? = some line ∧ line.text = content := by
  rw [← LineIndex.map_text_linesFrom 0, List.getElem?_map, Option.map_eq_some_iff] at listed
  exact listed

theorem LineIndex.offset?_le_size {text : String} {position : Position} {offset : Nat}
    (found : (LineIndex.ofText text).offset? position = some offset) :
    offset ≤ byteSize text.toList := by
  obtain ⟨line, listed, rfl⟩ := Option.map_eq_some_iff.mp found
  have stop := LineIndex.stop_le_of_getElem?_lines listed
  refine Nat.le_trans ?_ stop
  rw [Line.offset]
  split
  · exact Nat.min_le_right _ _
  · have parts := congrArg byteSize (List.take_append_drop position.column line.text)
    rw [Text.byteSize_append] at parts
    rw [Line.stop]
    omega

/-- The root of a template covers its whole text. -/
theorem exists_root (text : String) : ∃ (n : NodeId) (node : SyntaxNode),
    (parseTemplate text).tree.nodes[n]? = some node ∧ node.range = ⟨0, byteSize text.toList⟩ := by
  have follows := SyntaxTree.ofTemplate_follows (parseTemplate text).template
  obtain ⟨n, spot⟩ := List.mem_iff_getElem?.mp
    (SyntaxTree.self_mem_spots 0 (parseTemplate text).template.outline)
  obtain ⟨node, held, -, range, -⟩ := follows.node n _ spot
  exact ⟨n, node, held, range⟩

namespace TemplateFile

variable {entries : List Entry} {entry : Entry} {file : TemplateFile} {offset : Nat}

/-- Of the entries that touch an offset this is the shortest, and the last of the equally short ones. -/
def IsNarrowest (entries : List Entry) (offset : Nat) (entry : Entry) : Prop :=
  ∃ front behind, entries = front ++ entry :: behind ∧ entry.range.touches offset = true ∧
    (∀ other ∈ front, other.range.touches offset = true →
      entry.range.length ≤ other.range.length) ∧
    ∀ other ∈ behind, other.range.touches offset = true → entry.range.length < other.range.length

theorem foldl_narrower_eq_none_iff : entries.foldl narrower none = none ↔ entries = [] := by
  rcases List.eq_nil_or_concat' entries with rfl | ⟨front, last, rfl⟩
  · simp
  · rw [List.foldl_concat]
    cases best : front.foldl narrower none with
    | none => simp [narrower]
    | some old =>
      by_cases shorter : old.range.length < last.range.length <;> simp [narrower, shorter]

/-- By induction from the last entry: it is told unless a shorter one was told before it. -/
theorem exists_of_foldl_narrower (told : entries.foldl narrower none = some entry) :
    ∃ front behind, entries = front ++ entry :: behind ∧
      (∀ other ∈ front, entry.range.length ≤ other.range.length) ∧
      ∀ other ∈ behind, entry.range.length < other.range.length := by
  induction entries using List.reverseRecOn generalizing entry with
  | nil => cases told
  | append_singleton earlier last ih =>
    rw [List.foldl_concat] at told
    cases best : earlier.foldl narrower none with
    | none =>
      obtain rfl := foldl_narrower_eq_none_iff.mp best
      obtain rfl := Option.some.inj told
      exact ⟨[], [], rfl, by simp, by simp⟩
    | some old =>
      obtain ⟨front, behind, parts, before, after⟩ := ih best
      simp only [best, narrower] at told
      split at told
      · rename_i shorter
        obtain rfl := Option.some.inj told
        refine ⟨front, behind ++ [last], by rw [parts]; simp, before, fun other member => ?_⟩
        rcases List.mem_append.mp member with inside | same
        · exact after other inside
        · rwa [List.mem_singleton.mp same]
      · rename_i notShorter
        obtain rfl := Option.some.inj told
        refine ⟨earlier, [], rfl, fun other member => ?_, by simp⟩
        rw [parts, List.mem_append, List.mem_cons] at member
        rcases member with inside | rfl | inside
        · have least := before other inside
          omega
        · omega
        · have least := after other inside
          omega

theorem foldl_narrower_some {behind : List Entry}
    (after : ∀ other ∈ behind, entry.range.length < other.range.length) :
    behind.foldl narrower (some entry) = some entry := by
  induction behind with
  | nil => rfl
  | cons other behind ih =>
    obtain ⟨longer, others⟩ := List.forall_mem_cons.mp after
    have kept : narrower (some entry) other = some entry := by
      rw [narrower]
      exact if_pos longer
    rw [List.foldl_cons, kept, ih others]

/-- The entry that is told is the last of the shortest ones. -/
theorem foldl_narrower_eq_some_iff :
    entries.foldl narrower none = some entry ↔ ∃ front behind, entries = front ++ entry :: behind ∧
      (∀ other ∈ front, entry.range.length ≤ other.range.length) ∧
      ∀ other ∈ behind, entry.range.length < other.range.length := by
  refine ⟨exists_of_foldl_narrower, ?_⟩
  rintro ⟨front, behind, rfl, before, after⟩
  have chosen : narrower (front.foldl narrower none) entry = some entry := by
    cases best : front.foldl narrower none with
    | none => rfl
    | some old =>
      obtain ⟨start, rest, parts, -⟩ := exists_of_foldl_narrower best
      have least := before old (by rw [parts]; simp)
      rw [narrower]
      exact if_neg (by omega)
  rw [List.foldl_append, List.foldl_cons, chosen, foldl_narrower_some after]

theorem entryAtOffset?_eq_none_iff :
    file.entryAtOffset? offset = none ↔ ∀ entry ∈ file.entries, entry.range.touches offset = false := by
  rw [entryAtOffset?, foldl_narrower_eq_none_iff, List.filter_eq_nil_iff]
  simp

/-- At an offset the narrowest entry is told. -/
theorem entryAtOffset?_eq_some_iff :
    file.entryAtOffset? offset = some entry ↔ IsNarrowest file.entries.toList offset entry := by
  rw [entryAtOffset?, foldl_narrower_eq_some_iff]
  constructor
  · rintro ⟨front, behind, parts, before, after⟩
    obtain ⟨first, rest, whole, rfl, cut⟩ := List.filter_eq_append_iff.mp parts
    obtain ⟨missed, last, rfl, none, touches, rfl⟩ := List.filter_eq_cons_iff.mp cut
    refine ⟨first ++ missed, last, by rw [whole, List.append_assoc], touches, ?_, ?_⟩
    · intro other member touched
      rcases List.mem_append.mp member with inside | out
      · exact before other (List.mem_filter.mpr ⟨inside, touched⟩)
      · exact absurd touched (none other out)
    · intro other member touched
      exact after other (List.mem_filter.mpr ⟨member, touched⟩)
  · rintro ⟨front, behind, parts, touches, before, after⟩
    refine ⟨front.filter fun other => other.range.touches offset,
      behind.filter fun other => other.range.touches offset, ?_, ?_, ?_⟩
    · rw [parts, List.filter_append, List.filter_cons, if_pos touches]
    · intro other member
      obtain ⟨inside, touched⟩ := List.mem_filter.mp member
      exact before other inside touched
    · intro other member
      obtain ⟨inside, touched⟩ := List.mem_filter.mp member
      exact after other inside touched

theorem entryAt?_eq_some_iff {position : Position} :
    file.entryAt? position = some entry ↔
      ∃ offset, file.lines.offset? position = some offset ∧
        IsNarrowest file.entries.toList offset entry := by
  simp only [entryAt?, Option.bind_eq_some_iff, entryAtOffset?_eq_some_iff]

theorem entryAt?_eq_none_iff {position : Position} :
    file.entryAt? position = none ↔
      file.lines.offset? position = none ∨ ∃ offset, file.lines.offset? position = some offset ∧
        ∀ entry ∈ file.entries, entry.range.touches offset = false := by
  rw [entryAt?]
  cases file.lines.offset? position with
  | none => simp
  | some offset => simp [entryAtOffset?_eq_none_iff]

/-- An entry hides those before it with the same range. -/
theorem Consistent.entryAt?_ne (consistent : file.Consistent) {n m : Nat} {hidden later : Entry}
    (first : file.entries[n]? = some hidden) (second : file.entries[m]? = some later) (order : n < m)
    (same : hidden.range = later.range) (position : Position) :
    file.entryAt? position ≠ some hidden := by
  intro told
  obtain ⟨offset, -, front, behind, parts, touches, -, after⟩ := entryAt?_eq_some_iff.mp told
  have place : file.entries[front.length]? = some hidden := by
    rw [← Array.getElem?_toList, parts, List.getElem?_append_right (Nat.le_refl _), Nat.sub_self]
    rfl
  have number : n = front.length := (consistent.id_eq first).symm.trans (consistent.id_eq place)
  have member : later ∈ behind := by
    obtain ⟨k, rfl⟩ : ∃ k, m = front.length + (k + 1) := ⟨m - front.length - 1, by omega⟩
    rw [← Array.getElem?_toList, parts, List.getElem?_append_right (Nat.le_add_right _ _),
      Nat.add_sub_cancel_left, List.getElem?_cons_succ] at second
    exact List.mem_of_getElem? second
  have longer := after later member (same ▸ touches)
  rw [same] at longer
  exact Nat.lt_irrefl _ longer

/-- Whatever was attached stands behind the nodes of the tree. -/
theorem size_le_of_isSynthetic {uri : FileUri} {text : String} {tree : SyntaxTree}
    {errors : Array Template.SyntaxError} (grown : (ofTree uri text tree errors).Extends file)
    {m : Nat} (held : file.entries[m]? = some entry) (synthetic : entry.tag.isSynthetic = true) :
    tree.nodes.size ≤ m := by
  obtain ⟨-, -, -, -, -, -, nodes⟩ := ofTree_entries uri text tree errors
  by_contra early
  obtain ⟨more, whole⟩ := grown.entries
  rw [← Array.getElem?_toList, ← whole, nodes, List.getElem?_append_left (by simpa using early),
    List.getElem?_map, Option.map_eq_some_iff] at held
  obtain ⟨node, -, rfl⟩ := held
  exact Bool.false_ne_true (node.1.kind.isSynthetic_tag.symm.trans synthetic)

/-- In a template that was just read the root is at every place. -/
theorem isSome_entryAt?_ofText (uri : FileUri) {text : String} {position : Position}
    (found : (LineIndex.ofText text).offset? position = some offset) :
    ((ofText uri text).entryAt? position).isSome = true := by
  obtain ⟨fresh, -, written, -⟩ :=
    ofTree_entries uri text (parseTemplate text).tree (parseTemplate text).errors
  have lines : (ofText uri text).lines = .ofText text := fresh.lines.trans (congrArg _ written)
  obtain ⟨n, root, held, whole⟩ := exists_root text
  obtain ⟨entry, listed, -, -, range⟩ :
      ∃ entry, (ofText uri text).entries[n]? = some entry ∧ entry.content = .treeNode n ∧
        entry.tag = root.kind.tag ∧ entry.range = root.range := entry_of_node held
  have touched : entry.range.touches offset = true := by
    rw [range, whole]
    simp [ByteRange.touches, LineIndex.offset?_le_size found]
  rw [entryAt?, lines, found, Option.bind_some, Option.isSome_iff_ne_none]
  intro missing
  rw [entryAtOffset?_eq_none_iff.mp missing entry (Array.mem_of_getElem? listed)] at touched
  cases touched

/-- Whatever was put into a template, none of its entries is told for a line and column just if there is no
such line or no entry touches the place there; otherwise it is the shortest of those that touch it, and of
equally short ones the one that was put in last. So an entry is never told where a later one has the same
range, and no node of the syntax tree where a synthetic entry has its range. In a template that was just read
something is told for each line there is. The place of a line and column is as many characters into the line
as the column says, or at its end. -/
theorem entryAt?_narrowest (uri : FileUri) (text : String) (tree : SyntaxTree)
    (errors : Array Template.SyntaxError) (insertions : List Insertion) :
    let file := ((ofTree uri text tree errors).insertAll insertions).2
    (∀ position, file.entryAt? position = none ↔
      (text.toList.splitOn '\n').length ≤ position.line ∨
        ∃ offset, file.lines.offset? position = some offset ∧
          ∀ entry ∈ file.entries, entry.range.touches offset = false) ∧
    (∀ position entry, file.entryAt? position = some entry ↔
      ∃ offset, file.lines.offset? position = some offset ∧
        IsNarrowest file.entries.toList offset entry) ∧
    (∀ (n m : Nat) (hidden later : Entry), file.entries[n]? = some hidden →
      file.entries[m]? = some later → n < m → hidden.range = later.range →
        ∀ position, file.entryAt? position ≠ some hidden) ∧
    (∀ (n : Nat) (node : SyntaxNode), tree.nodes[n]? = some node → ∃ hidden,
      file.entries[n]? = some hidden ∧ hidden.content = .treeNode n ∧
        ∀ synthetic ∈ file.entries, synthetic.tag.isSynthetic = true →
          synthetic.range = hidden.range → ∀ position, file.entryAt? position ≠ some hidden) ∧
    (∀ position : Position, position.line < (text.toList.splitOn '\n').length →
      ((ofText uri text).entryAt? position).isSome = true) ∧
    (byteSize text.toList ≤ Line.maxOffset → ∀ number column content,
      (text.toList.splitOn '\n')[number]? = some content →
        ∃ before after, text.toList = before ++ after ∧
          file.lines.offset? ⟨number, column⟩ = some (byteSize before) ∧
          before.count '\n' = number ∧ afterLast '\n' before = content.take column) := by
  intro file
  obtain ⟨fresh, -, written, -, -, -, nodes⟩ := ofTree_entries uri text tree errors
  have grown : (ofTree uri text tree errors).Extends file := .insertAll _ insertions
  have consistent : file.Consistent := fresh.insertAll insertions
  have lines : file.lines = .ofText text := by
    rw [consistent.lines, grown.text, written]
  have lineMissing (position : Position) : file.lines.offset? position = none ↔
      (text.toList.splitOn '\n').length ≤ position.line := by
    rw [lines, ← LineIndex.lineCount_ofText]
    exact LineIndex.offset?_eq_none_iff
  refine ⟨fun position => ?_, fun position entry => entryAt?_eq_some_iff,
    fun n m hidden later first second order same => consistent.entryAt?_ne first second order same,
    fun n node held => ?_, fun position inside => ?_, fun short number column content listed => ?_⟩
  · rw [entryAt?_eq_none_iff, lineMissing]
  · have first : file.entries[n]? = some (entryOfNode (.ofText text) (node, n)) := by
      refine grown.getElem? ?_
      rw [← Array.getElem?_toList] at held ⊢
      rw [nodes, List.getElem?_map, List.getElem?_zipIdx, held, Option.map_some, Option.map_some,
        Nat.zero_add]
    refine ⟨_, first, rfl, fun synthetic member tagged same => ?_⟩
    obtain ⟨m, second⟩ := List.mem_iff_getElem?.mp (Array.mem_toList_iff.mpr member)
    rw [Array.getElem?_toList] at second
    have behind := size_le_of_isSynthetic grown second tagged
    have bound := (Array.getElem?_eq_some_iff.mp held).1
    exact consistent.entryAt?_ne first second (Nat.lt_of_lt_of_le bound behind) same.symm
  · obtain ⟨number, column⟩ := position
    obtain ⟨offset, found⟩ := Option.ne_none_iff_exists'.mp fun missing =>
      Nat.not_le_of_lt inside ((lineMissing ⟨number, column⟩).mp missing)
    rw [lines] at found
    exact isSome_entryAt?_ofText uri found
  · obtain ⟨line, held, rfl⟩ := LineIndex.getElem?_splitOn listed
    rw [lines]
    obtain ⟨before, after, cut, offset, count, last, -⟩ := LineIndex.offset?_of_getElem? short held
    exact ⟨before, after, cut, offset, count, last⟩

private def tieText : String := "/* ä */ a = $\x7bT.go()\x7d"

private def tieMethod : MethodDeclaration :=
  ⟨"go", "go", false, [], .unresolved, "", none, ⟨0, 0⟩, ⟨⟨0, 0⟩, ⟨0, 0⟩⟩⟩

private def tieClass : LoadedClass :=
  ⟨0, ⟨"A\\T", "A", [tieMethod], ⟨"file:///T.php"⟩, ⟨0, 0⟩, ⟨⟨0, 0⟩, ⟨0, 0⟩⟩⟩⟩

private def tieStep : ChainStep :=
  ⟨⟨"T", tieClass, ⟨15, 16⟩, 4, [3]⟩, tieClass, tieMethod, 3, ⟨17, 21⟩⟩

private def tieFile : TemplateFile :=
  ((ofTree ⟨"file:///Root.fusion"⟩ tieText (parseTemplate tieText).tree #[]).insertAll [.step tieStep]).2

private def tieHidden : Entry :=
  ⟨2, .objectPathNode, .treeNode 2, ⟨15, 16⟩, ⟨⟨0, 14⟩, ⟨0, 15⟩⟩⟩

private def tieHelper : Entry :=
  ⟨9, .helper, .helper "T" tieClass 4 10, ⟨15, 16⟩, ⟨⟨0, 14⟩, ⟨0, 15⟩⟩⟩

/-- The entry of a helper hides the part of a chain that it was attached to, and a column past the end of
the line counts as its end. -/
theorem entryAt?_narrowest_attached :
    byteSize tieText.toList ≤ Line.maxOffset ∧ tieFile.entries[2]? = some tieHidden ∧
      tieHelper.tag.isSynthetic = true ∧ tieHelper.range = tieHidden.range ∧
      tieFile.entryAt? ⟨0, 14⟩ ≠ some tieHidden ∧ tieFile.entryAt? ⟨0, 14⟩ = some tieHelper ∧
      IsNarrowest tieFile.entries.toList 15 tieHelper ∧ tieFile.entryAt? ⟨1, 0⟩ = none ∧
      ∃ before after, tieText.toList = before ++ after ∧
        tieFile.lines.offset? ⟨0, 5000000000⟩ = some (byteSize before) ∧
        afterLast '\n' before = tieText.toList := by
  have short : byteSize tieText.toList ≤ Line.maxOffset := by decide
  obtain ⟨missing, found, hides, -, -, places⟩ := entryAt?_narrowest ⟨"file:///Root.fusion"⟩ tieText
    (parseTemplate tieText).tree #[] [.step tieStep]
  have first : tieFile.entries[2]? = some tieHidden := by decide +kernel
  have second : tieFile.entries[9]? = some tieHelper := by decide +kernel
  have told : tieFile.entryAt? ⟨0, 14⟩ = some tieHelper := by decide +kernel
  have place : tieFile.lines.offset? ⟨0, 14⟩ = some 15 := by decide +kernel
  obtain ⟨offset, same, narrowest⟩ := (found ⟨0, 14⟩ tieHelper).mp told
  obtain rfl := Option.some.inj (place.symm.trans same)
  have single : (tieText.toList.splitOn '\n')[0]? = some tieText.toList := by decide
  obtain ⟨before, after, cut, stop, -, last⟩ := places short 0 5000000000 _ single
  refine ⟨short, first, rfl, rfl, hides 2 9 _ _ first second (by decide) rfl _, told, narrowest,
    (missing ⟨1, 0⟩).mpr (Or.inl (by decide)), before, after, cut, stop, ?_⟩
  rw [last, List.take_of_length_le (by decide)]

end TemplateFile

end FusionAtlas
