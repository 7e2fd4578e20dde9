import FusionAtlas.HostCode.ClassDirectory
import FusionAtlas.SyntaxTree.OfTemplate
import FusionAtlas.TemplateFile.Components
import FusionAtlas.Text.LineIndex

/-!
A template with an index of its nodes: first the nodes of its syntax tree, then what resolution
attached to it. Entries are only ever added, so an entry is known by its number.
-/

set_option autoImplicit false
set_option relaxedAutoImplicit false

namespace FusionAtlas

/-- Number of an entry in its file. -/
abbrev EntryId := Nat

/-- What an entry stands for. -/
inductive EntryContent where
  /-- A node of the syntax tree. -/
  | treeNode (node : NodeId)
  /-- The use of a bound helper at the start of a chain, and the entry of the method found there. -/
  | helper (identifier : String) (cls : LoadedClass) (objectNode : NodeId) (method : EntryId)
  /-- The call of a method, the class that declares it, and the entry of the helper it belongs to. -/
  | helperMethod (identifier : String) (cls : LoadedClass) (method : MethodDeclaration)
      (segment : NodeId) (owner : EntryId)
  /-- A literal that is the id of a label in some language file. -/
  | label (value : String) (literal : NodeId)
  /-- A literal that names a class. -/
  | classReference (identifier : String) (cls : LoadedClass) (literal : NodeId)
  deriving DecidableEq, Repr

namespace EntryContent

/-- The class an entry was made from. -/
def class? : EntryContent → Option LoadedClass
  | helper _ cls _ _ | helperMethod _ cls _ _ _ | classReference _ cls _ => some cls
  | treeNode _ | label _ _ => none

/-- The node of the syntax tree, if the entry stands for one. -/
def treeNode? : EntryContent → Option NodeId
  | treeNode node => some node
  | _ => none

end EntryContent

/-- An entry at its place in the text. -/
structure Entry where
  id : EntryId
  tag : NodeTag
  content : EntryContent
  range : ByteRange
  span : Span
  deriving DecidableEq, Repr

/-- Numbers of entries by tag. Each tag in use is listed once. -/
structure TagIndex where
  lists : List (NodeTag × Array EntryId)
  deriving DecidableEq, Repr

namespace TagIndex

def empty : TagIndex := ⟨[]⟩

/-- The numbers noted for a tag, in the order they were noted. -/
def get (index : TagIndex) (tag : NodeTag) : Array EntryId :=
  ((index.lists.find? fun listed => listed.1 = tag).map (·.2)).getD #[]

/-- Note one more number for a tag. -/
def push (index : TagIndex) (tag : NodeTag) (id : EntryId) : TagIndex :=
  ⟨(tag, (index.get tag).push id) :: index.lists.filter fun listed => listed.1 ≠ tag⟩

end TagIndex

/-- A template and the index of its nodes. -/
structure TemplateFile where
  uri : FileUri
  text : String
  lines : LineIndex
  tree : SyntaxTree
  errors : Array Template.SyntaxError
  entries : Array Entry
  tagged : TagIndex
  components : Components
  deriving Repr

namespace TemplateFile

/-- Add an entry. Its range is cut to the text. -/
def add (file : TemplateFile) (content : EntryContent) (tag : NodeTag) (range : ByteRange) :
    TemplateFile :=
  let range := range.clamp file.lines.size
  let id := file.entries.size
  { file with
    entries := file.entries.push ⟨id, tag, content, range, file.lines.span range⟩
    tagged := file.tagged.push tag id }

/-- Add the nodes of the syntax tree in order. -/
def addTree (file : TemplateFile) : TemplateFile :=
  file.tree.nodes.toList.zipIdx.foldl
    (fun file entry => file.add (.treeNode entry.2) entry.1.kind.tag entry.1.range)
    file

/-- The file of a text with a syntax tree of it, whoever read the tree. -/
def ofTree (uri : FileUri) (text : String) (tree : SyntaxTree)
    (errors : Array Template.SyntaxError) : TemplateFile :=
  addTree ⟨uri, text, .ofText text, tree, errors, #[], .empty, tree.components⟩

def ofText (uri : FileUri) (text : String) : TemplateFile :=
  let parsed := parseTemplate text
  ofTree uri text parsed.tree parsed.errors

def size (file : TemplateFile) : Nat := file.entries.size

/-- The entry of a node of the syntax tree. -/
def treeEntry? (file : TemplateFile) (node : NodeId) : Option Entry :=
  file.entries[node]?.filter fun entry => entry.content.treeNode? == some node

/-- The entries with a tag in order. -/
def withTag (file : TemplateFile) (tag : NodeTag) : List Entry :=
  (file.tagged.get tag).toList.filterMap fun id => file.entries[id]?

/-- The entries that resolution attached, in order. -/
def synthetic (file : TemplateFile) : List Entry :=
  file.entries.toList.filter fun entry => entry.tag.isSynthetic

def textOf (file : TemplateFile) (entry : Entry) : String :=
  String.ofList (Text.slice file.text.toList entry.range.start entry.range.stop)

/-- The better of two entries at one place: the shorter one, the later one if they are equal. -/
def narrower (best : Option Entry) (entry : Entry) : Option Entry :=
  match best with
  | some old => if old.range.length < entry.range.length then some old else some entry
  | none => some entry

/-- The narrowest entry at a byte offset, the end of an entry included. -/
def entryAtOffset? (file : TemplateFile) (offset : Nat) : Option Entry :=
  (file.entries.toList.filter fun entry => entry.range.touches offset).foldl narrower none

/-- The narrowest entry at a position. -/
def entryAt? (file : TemplateFile) (position : Position) : Option Entry :=
  (file.lines.offset? position).bind file.entryAtOffset?

/-- Some entry was made from a class of this class file. -/
def refersTo (file : TemplateFile) (uri : FileUri) : Bool :=
  file.entries.any fun entry => entry.content.class?.any fun cls => cls.declaration.uri = uri

end TemplateFile

end FusionAtlas
