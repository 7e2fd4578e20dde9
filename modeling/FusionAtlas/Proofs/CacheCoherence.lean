import FusionAtlas.Proofs.ClassFile
import FusionAtlas.Proofs.CurrentClasses

/-!
What is loaded and what is on the disk. If a workspace is told of every change of a file by the name of
the path that leads straight to it, each lookup of a regular name answers with what the file of the class
declares now. Main statement: `Workspace.lookup_eq_read`; a change made through another path of the same
file is missed, see `Workspace.stale_behind_alias`.
-/

set_option autoImplicit false
set_option relaxedAutoImplicit false

namespace FusionAtlas

namespace ClassName

theorem regular_keyOf {fqcn : String} : Regular (ClassDirectory.keyOf fqcn) ↔ Regular fqcn := by
  simp only [Regular, ClassDirectory.keyOf, dropLeading, String.toList_ofList,
    List.dropWhile_idempotent]

end ClassName

namespace ClassLibrary

variable {disk : Disk} {stale fewer : List FileUri} {library : ClassLibrary} {fqcn : String}

/-- Each class loaded under a regular name is as its file declares it on the disk, unless the file is
stale. -/
def Coherent (disk : Disk) (stale : List FileUri) (library : ClassLibrary) : Prop :=
  ∀ directory ∈ library.directories, ∀ entry ∈ directory.classes, ClassName.Regular entry.1 →
    entry.2.declaration.uri ∉ stale → directory.read disk entry.1 = .ok entry.2.declaration

namespace Coherent

theorem mono (coherent : Coherent disk fewer library) (included : fewer ⊆ stale) :
    Coherent disk stale library :=
  fun directory member entry listed regular fresh =>
    coherent directory member entry listed regular fun old => fresh (included old)

/-- What a lookup loads is as its file declares it. -/
theorem lookup (coherent : Coherent disk stale library) (fqcn : String) :
    Coherent disk stale (library.lookup disk fqcn).2 := by
  rcases library.lookup_cases disk fqcn with
    ⟨found, -, result⟩ | ⟨-, -, result⟩ | ⟨n, directory, declared, -, -, owner, content, result⟩
  · rw [result]
    exact coherent
  · rw [result]
    exact coherent
  · rw [result]
    intro other member entry listed regular fresh
    rcases List.mem_or_eq_of_mem_set member with old | rfl
    · exact coherent other old entry listed regular fresh
    · rcases List.mem_append.mp listed with old | new
      · have held := List.mem_of_getElem? (getElem?_of_owner? owner).1
        exact coherent directory held entry old regular fresh
      · rw [List.mem_singleton.mp new]
        have same := directory.read_congr disk (ClassDirectory.keyOf_keyOf fqcn)
        exact same.trans content

theorem of_grows {a b : ClassLibrary} (coherent : Coherent disk stale a) (grows : Grows disk a b) :
    Coherent disk stale b :=
  grows.preserves (fun _ fqcn coherent => coherent.lookup fqcn) coherent

/-- Behind a purge the classes of the file are no longer stale, since none are loaded. -/
theorem purge {uri : FileUri} (coherent : Coherent disk [uri] library) :
    Coherent disk [] (library.purge uri) := by
  intro directory member entry listed regular _
  obtain ⟨old, place, rfl⟩ := List.mem_map.mp member
  obtain ⟨held, other⟩ := List.mem_filter.mp listed
  have fresh : entry.2.declaration.uri ∉ [uri] := by simpa using other
  exact coherent old place entry held regular fresh

/-- A loaded class is what reading its file gives. -/
theorem read?_of_loaded {found : LoadedClass} (coherent : Coherent disk [] library)
    (regular : ClassName.Regular fqcn) (loaded : library.loaded? fqcn = some found) :
    library.read? disk fqcn = some found.declaration := by
  obtain ⟨⟨n, directory⟩, owner, held⟩ := Option.bind_eq_some_iff.mp loaded
  obtain ⟨entry, search, rfl⟩ := Option.map_eq_some_iff.mp held
  have member := List.mem_of_getElem? (getElem?_of_owner? owner).1
  have key : entry.1 = ClassDirectory.keyOf fqcn := by simpa using List.find?_some search
  have content := coherent directory member entry (List.mem_of_find?_eq_some search)
    (by rw [key]; exact ClassName.regular_keyOf.mpr regular) List.not_mem_nil
  rw [key, directory.read_congr disk (ClassDirectory.keyOf_keyOf fqcn)] at content
  rw [read?, owner, Option.bind_some, content]
  rfl

/-- Looking a regular name up gives what reading its file gives. -/
theorem lookup_eq_read? (coherent : Coherent disk [] library) (regular : ClassName.Regular fqcn) :
    (library.lookup disk fqcn).1.map (·.declaration) = library.read? disk fqcn := by
  rw [fst_lookup]
  cases loaded : library.loaded? fqcn with
  | some found => exact (coherent.read?_of_loaded regular loaded).symm
  | none =>
    rw [Option.none_or, Option.map_map]
    exact Option.map_id'

end Coherent

end ClassLibrary

namespace Disk

variable {disk : Disk} {root : List FileName}

theorem LinkFree.write (free : disk.LinkFree root) (path : FilePath) (content : List UInt8) :
    (disk.write path content).LinkFree root :=
  fun names near target held => free names near target (get?_write_link held)

theorem LinkFree.remove (free : disk.LinkFree root) (path : FilePath) :
    (disk.remove path).LinkFree root :=
  fun names near target held => free names near target (get?_remove_link held)

/-- How writing a file at a path is reported: it is new, or there was a file before. -/
def changeOfWrite (disk : Disk) (path : FilePath) : FileChange :=
  match (disk.destination? path).bind disk.root.get? with
  | some (.file _) => .changed
  | _ => .created

/-- There is a file at a path itself. -/
def holdsFile (disk : Disk) (path : FilePath) : Bool :=
  match (disk.ownNames? path).bind disk.root.get? with
  | some (.file _) => true
  | _ => false

end Disk

/-- Class files have the usual extension, and each class directory is at an absolute path without steps
up, with no link on the way, at it or below. -/
structure WorkspaceSettings.IsPlain (settings : WorkspaceSettings) (disk : Disk) : Prop where
  extension : settings.hostExtension = ClassDirectory.defaultExtension
  roots : ∀ root ∈ settings.roots, root.2.isAbsolute = true ∧
    ∃ names, root.2.components = names.map .name ∧ disk.LinkFree names

namespace WorkspaceSettings.IsPlain

variable {settings : WorkspaceSettings} {disk : Disk}

theorem write (plain : settings.IsPlain disk) (path : FilePath) (content : List UInt8) :
    settings.IsPlain (disk.write path content) := by
  refine ⟨plain.extension, fun root member => ?_⟩
  obtain ⟨absolute, names, straight, free⟩ := plain.roots root member
  exact ⟨absolute, names, straight, free.write path content⟩

theorem remove (plain : settings.IsPlain disk) (path : FilePath) :
    settings.IsPlain (disk.remove path) := by
  refine ⟨plain.extension, fun root member => ?_⟩
  obtain ⟨absolute, names, straight, free⟩ := plain.roots root member
  exact ⟨absolute, names, straight, free.remove path⟩

/-- The directories of a library are those of the settings, whatever is loaded. -/
theorem directory (plain : settings.IsPlain disk) {library : ClassLibrary}
    (same : ClassLibrary.SameRoots settings.library library) {directory : ClassDirectory}
    (member : directory ∈ library.directories) :
    ∃ names, directory.IsPlain names ∧ disk.LinkFree names := by
  have cleared : directory.cleared ∈ settings.library.directories.map ClassDirectory.cleared := by
    rw [same]
    exact List.mem_map_of_mem member
  obtain ⟨made, listed, equal⟩ := List.mem_map.mp cleared
  obtain ⟨root, given, rfl⟩ := List.mem_map.mp listed
  obtain ⟨absolute, names, straight, free⟩ := plain.roots root given
  have path : directory.path = root.2 := congrArg ClassDirectory.path equal.symm
  have extension : directory.extension = "php" := by
    have written := congrArg ClassDirectory.extension equal.symm
    simp only [ClassDirectory.cleared, ClassDirectory.withExtension, plain.extension] at written
    rw [written]
    decide
  exact ⟨names, ⟨extension, path ▸ absolute, path ▸ straight⟩, free⟩

end WorkspaceSettings.IsPlain

namespace Workspace

/-- Runs on a disk that changes, from a fresh workspace on. In between operations files are written and
removed at paths that are allowed, and each such change is reported at once, by the name of its path. -/
inductive Delivered (allowed : Disk → FilePath → Prop) (settings : WorkspaceSettings)
    (config : Configuration) (start : Disk) : Disk → Workspace → Prop where
  | fresh : Delivered allowed settings config start start (make settings config)
  | perform {disk : Disk} {ws : Workspace} (before : Delivered allowed settings config start disk ws)
      (operation : Operation) :
      Delivered allowed settings config start disk (ws.perform disk operation)
  | write {disk : Disk} {ws : Workspace} (before : Delivered allowed settings config start disk ws)
      (path : FilePath) (content : List UInt8) (reached : allowed disk path) :
      Delivered allowed settings config start (disk.write path content)
        (ws.perform (disk.write path content) (.event ⟨.ofPath path, disk.changeOfWrite path⟩))
  | remove {disk : Disk} {ws : Workspace} (before : Delivered allowed settings config start disk ws)
      (path : FilePath) (reached : allowed disk path) (file : disk.holdsFile path = true) :
      Delivered allowed settings config start (disk.remove path)
        (ws.perform (disk.remove path) (.event ⟨.ofPath path, .deleted⟩))

/-- The path leads straight to its file: it has no step up, and no link lies on the way or at it. -/
def Straight (disk : Disk) (path : FilePath) : Prop := ∃ names, disk.Direct path names

/-- The workspace has the class directories of the settings, and what is loaded is true to the disk,
but for stale files. -/
structure Faithful (settings : WorkspaceSettings) (disk : Disk) (stale : List FileUri)
    (ws : Workspace) : Prop where
  settings_eq : ws.settings = settings
  plain : settings.IsPlain disk
  roots : ClassLibrary.SameRoots settings.library ws.library
  keyed : ws.library.WellKeyed
  coherent : ws.library.Coherent disk stale

/-- The file whose classes an event makes the workspace forget. -/
def staleBehind (event : FileEvent) : List FileUri :=
  if event.change ≠ .created ∧ event.uri.hasExtension "php" = true then [event.uri] else []

theorem staleBehind_subset (event : FileEvent) : staleBehind event ⊆ [event.uri] := by
  unfold staleBehind
  split
  · exact List.Subset.refl _
  · exact List.nil_subset _

namespace Faithful

variable {settings : WorkspaceSettings} {disk : Disk} {stale : List FileUri} {ws after : Workspace}

theorem steps (faithful : Faithful settings disk stale ws) (taken : Steps disk ws after) :
    Faithful settings disk stale after := by
  have grows := taken.grows faithful.keyed
  have same := taken.preserves (P := fun after => after.settings = settings)
    (fun _ _ step same => step.settings.trans same) faithful.settings_eq
  exact ⟨same, faithful.plain, faithful.roots.trans grows.sameRoots, faithful.keyed.of_grows grows,
    faithful.coherent.of_grows grows⟩

theorem forget {uri : FileUri} (faithful : Faithful settings disk [uri] ws) :
    Faithful settings disk [] (ws.forget disk uri).scheduleAll := by
  have purged : Faithful settings disk [] (ws.purged uri) :=
    ⟨faithful.settings_eq, faithful.plain,
      faithful.roots.trans (ws.library.sameRoots_purge uri), faithful.keyed.purge uri,
      faithful.coherent.purge⟩
  exact (purged.steps (ws.steps_forget disk uri)).steps (.single (step_replaceBatch _ disk _))

theorem mono {fewer : List FileUri} (faithful : Faithful settings disk fewer ws)
    (included : fewer ⊆ stale) : Faithful settings disk stale ws :=
  ⟨faithful.settings_eq, faithful.plain, faithful.roots, faithful.keyed,
    faithful.coherent.mono included⟩

theorem perform (faithful : Faithful settings disk [] ws) (operation : Operation) :
    Faithful settings disk [] (ws.perform disk operation) := by
  rcases ws.perform_cases disk operation with taken | ⟨uri, result⟩
  · exact faithful.steps taken
  · rw [result]
    exact (faithful.mono (List.nil_subset [uri])).forget

/-- Classes of a file that are not loaded cannot be stale. -/
theorem of_loadedFrom {uri : FileUri} (faithful : Faithful settings disk [uri] ws)
    (none : (ws.library.loadedFrom uri).isEmpty = true) : Faithful settings disk [] ws := by
  refine ⟨faithful.settings_eq, faithful.plain, faithful.roots, faithful.keyed, ?_⟩
  intro directory member entry listed regular _
  refine faithful.coherent directory member entry listed regular fun same => ?_
  have loaded : entry.1 ∈ ws.library.loadedFrom uri := by
    refine List.mem_flatMap.mpr ⟨directory, member, List.mem_map.mpr ⟨entry, ?_, rfl⟩⟩
    exact List.mem_filter.mpr ⟨listed, by simpa using same⟩
  rw [List.isEmpty_iff.mp none] at loaded
  cases loaded

/-- The event of a file makes up for what is stale behind its change. -/
theorem event {event : FileEvent} (faithful : Faithful settings disk (staleBehind event) ws) :
    Faithful settings disk [] (ws.perform disk (.event event)) := by
  have php : ws.settings.hostExtension = "php" := by
    rw [faithful.settings_eq, faithful.plain.extension]
    rfl
  have one := faithful.mono (staleBehind_subset event)
  simp only [Workspace.perform, handleEvent, php]
  split
  · rw [handleHostEvent_eq]
    split
    · rename_i nothing
      rcases nothing with created | none
      · have fresh : staleBehind event = [] := by simp [staleBehind, created]
        rwa [fresh] at faithful
      · exact one.of_loadedFrom none
    · exact one.forget
  · rename_i other
    have fresh : staleBehind event = [] := by simp [staleBehind, other]
    rw [fresh] at faithful
    split
    · exact faithful.steps (ws.steps_handleTemplateEvent disk event)
    · exact faithful

/-- If each file of a class stays as it is on another disk, or is the file of the event, then only the
file of the event is stale there. -/
theorem changed {event : FileEvent} {other : Disk} (faithful : Faithful settings disk [] ws)
    (plain : settings.IsPlain other)
    (kept : ∀ root path names content, ClassDirectory.IsClassPath root path names →
      disk.root.get? names = some (.file content) →
      other.root.get? names = some (.file content) ∨ .ofPath path ∈ staleBehind event) :
    Faithful settings other (staleBehind event) ws := by
  refine ⟨faithful.settings_eq, plain, faithful.roots, faithful.keyed, ?_⟩
  intro directory member entry listed regular fresh
  obtain ⟨root, settled, free⟩ := faithful.plain.directory faithful.roots member
  obtain ⟨again, settled_again, still⟩ := plain.directory faithful.roots member
  have same : again = root := by
    have names := settled.straight.symm.trans settled_again.straight
    exact (List.map_injective_iff.mpr (fun _ _ equal => FilePath.Component.name.inj equal) names).symm
  rw [same] at still
  have found := faithful.coherent directory member entry listed regular List.not_mem_nil
  obtain ⟨path, names, content, place, uri, held, reads⟩ :=
    ClassDirectory.file_of_read settled free regular found
  rcases kept root path names content place held with kept | stale
  · exact reads other still kept
  · rw [uri] at fresh
    exact absurd stale fresh

/-- A class file at the names of a path has the name of the path. -/
theorem ofPath_eq {root names : List FileName} {path changed : FilePath}
    (place : ClassDirectory.IsClassPath root path names) (direct : disk.Direct changed names) :
    FileUri.ofPath path = .ofPath changed := by
  refine FileUri.ofPath_congr (place.components.trans direct.components.symm) ?_
  rw [place.components]
  simpa using place.nonempty

theorem write (faithful : Faithful settings disk [] ws) {path : FilePath}
    (straight : Straight disk path) (content : List UInt8) :
    Faithful settings (disk.write path content)
      (staleBehind ⟨.ofPath path, disk.changeOfWrite path⟩) ws := by
  obtain ⟨names, direct⟩ := straight
  refine faithful.changed (faithful.plain.write path content) ?_
  intro root file other old place held
  by_cases same : other = names
  · -- The file of a class is overwritten, so it was there and its change is no creation.
    subst same
    rcases direct.destination?_cases with nowhere | there
    · left
      rw [Disk.write, nowhere]
      exact held
    · right
      have change : disk.changeOfWrite path = .changed := by
        rw [Disk.changeOfWrite, there, Option.bind_some, held]
      have uri := ofPath_eq place direct
      have known : FileChange.changed ≠ .created := by decide
      rw [staleBehind, change, ← uri, if_pos ⟨known, place.extension⟩]
      exact List.mem_singleton_self _
  · exact Or.inl (direct.get?_write held same)

theorem remove (faithful : Faithful settings disk [] ws) {path : FilePath}
    (straight : Straight disk path) (file : disk.holdsFile path = true) :
    Faithful settings (disk.remove path) (staleBehind ⟨.ofPath path, .deleted⟩) ws := by
  obtain ⟨names, direct⟩ := straight
  refine faithful.changed (faithful.plain.remove path) ?_
  intro root found other old place held
  by_cases same : other = names
  · subst same
    right
    have uri := ofPath_eq place direct
    have known : FileChange.deleted ≠ .created := by decide
    rw [staleBehind, ← uri, if_pos ⟨known, place.extension⟩]
    exact List.mem_singleton_self _
  · left
    unfold Disk.holdsFile at file
    split at file
    · rename_i gone removed
      obtain ⟨own, reached, there⟩ := Option.bind_eq_some_iff.mp removed
      have here : own = names := by
        rcases direct.ownNames?_cases with nowhere | reaches
        · rw [nowhere] at reached
          cases reached
        · rw [reaches] at reached
          exact (Option.some.inj reached).symm
      rw [here] at there
      exact direct.get?_remove held there same
    · cases file

end Faithful

theorem Delivered.faithful {settings : WorkspaceSettings} {config : Configuration}
    {start disk : Disk} {ws : Workspace} (plain : settings.IsPlain start)
    (delivered : Delivered Straight settings config start disk ws) :
    Faithful settings disk [] ws := by
  induction delivered with
  | fresh =>
    have reachable : Reachable settings config (make settings config) := .fresh
    refine ⟨rfl, plain, .refl _, reachable.numbered.1, ?_⟩
    intro directory member entry listed
    exact absurd ⟨directory, member, entry, listed, rfl⟩ settings.not_holds_library
  | perform _ operation ih => exact ih.perform operation
  | write _ path content straight ih => exact (ih.write straight content).event
  | remove _ path straight file ih => exact (ih.remove straight file).event

/-- If class directories are plain and every change of a file is reported by the path that leads straight
to it, then in every state a lookup of a regular name answers with what reading the file of the class now
on the disk gives, or with nothing if that gives nothing. The same holds for the lookups that any
operation makes on this disk. -/
theorem lookup_eq_read {settings : WorkspaceSettings} {config : Configuration} {start disk : Disk}
    {ws : Workspace} {fqcn : String} (plain : settings.IsPlain start)
    (delivered : Delivered Straight settings config start disk ws)
    (regular : ClassName.Regular fqcn) :
    (ws.lookup disk fqcn).1.map (·.declaration) = settings.library.read? disk fqcn ∧
      ∀ library, ClassLibrary.Grows disk ws.library library →
        (library.lookup disk fqcn).1.map (·.declaration) = settings.library.read? disk fqcn := by
  have faithful := delivered.faithful plain
  have all : ∀ library, ClassLibrary.Grows disk ws.library library →
      (library.lookup disk fqcn).1.map (·.declaration) = settings.library.read? disk fqcn := by
    intro library grows
    have coherent := faithful.coherent.of_grows grows
    rw [coherent.lookup_eq_read? regular]
    exact (ClassLibrary.read?_of_sameRoots (faithful.roots.trans grows.sameRoots) disk fqcn).symm
  exact ⟨all ws.library .refl, all⟩

private def priceSettings : WorkspaceSettings :=
  { WorkspaceSettings.standard with roots := [("Acme", .ofString "/src")] }

private def priceName : String := "Acme\\Price"

private def priceFile (method : String) : List UInt8 :=
  Text.Utf8.encode ("<?php\nnamespace Acme;\nclass Price \x7b\npublic function " ++ method ++
    "(): int;\n\x7d\n").toList

private def priceFolder : List (FileName × DiskEntry) :=
  [(Text.Utf8.encode "Price.php".toList, .file (priceFile "net"))]

private def priceDisk (folder more : List (FileName × DiskEntry)) : Disk :=
  ⟨.directory ((Text.Utf8.encode "src".toList, .directory folder) :: more)⟩

private def priceStart : Disk := priceDisk priceFolder []

private def priceWrite (disk : Disk) (path : FilePath) : Disk := disk.write path (priceFile "gross")

/-- The class is looked up, then a file is written at a path, which is reported. -/
private def priceRun (disk : Disk) (path : FilePath) : Workspace :=
  ((make priceSettings .empty).perform disk (.lookup priceName)).perform (priceWrite disk path)
    (.event ⟨.ofPath path, disk.changeOfWrite path⟩)

private def pricePath : FilePath := .ofString "/src/Price.php"

private theorem price_delivered {allowed : Disk → FilePath → Prop} {disk : Disk} {path : FilePath}
    (reached : allowed disk path) :
    Delivered allowed priceSettings .empty disk (priceWrite disk path) (priceRun disk path) :=
  (Delivered.fresh.perform (.lookup priceName)).write path (priceFile "gross") reached

private theorem price_plain (more : List (FileName × DiskEntry)) :
    priceSettings.IsPlain (priceDisk priceFolder more) := by
  refine ⟨rfl, fun root member => ?_⟩
  rw [List.mem_singleton.mp member]
  refine ⟨by decide +kernel, [Text.Utf8.encode "src".toList], by decide +kernel, ?_⟩
  have here : (priceDisk priceFolder more).root.get? [Text.Utf8.encode "src".toList] =
      some (.directory priceFolder) := by
    simp [priceDisk, DiskEntry.get?, DiskEntry.find?]
  refine .of_files here ?_
  intro entry listed
  rw [List.mem_singleton.mp listed]
  exact ⟨_, rfl⟩

private theorem price_regular : ClassName.Regular priceName := by
  intro part member
  have parts : (ClassName.dropLeading priceName.toList).splitOn '\\' =
      ["Acme".toList, "Price".toList] := by decide +kernel
  rw [parts] at member
  rcases List.mem_cons.mp member with rfl | member
  · unfold ClassName.IsFileName
    decide
  · rw [List.mem_singleton.mp member]
    unfold ClassName.IsFileName
    decide

private theorem price_straight : Straight priceStart pricePath := by
  have file : priceStart.root.get?
      [Text.Utf8.encode "src".toList, Text.Utf8.encode "Price.php".toList] =
        some (.file (priceFile "net")) := by
    simp [priceStart, priceDisk, priceFolder, DiskEntry.get?, DiskEntry.find?]
  exact ⟨_, by decide +kernel, fun front before target =>
    DiskEntry.get?_ne_link file (fun _ same => by cases same) before⟩

/-- The names of the methods of a class. -/
private def methodsOf (found : Option ClassDeclaration) : Option (List String) :=
  found.map fun declared => declared.methods.map (·.name)

/-- A class is looked up, its file is overwritten, and the next lookup gives what stands there now. -/
theorem lookup_of_overwritten_class :
    priceSettings.IsPlain priceStart ∧
      Delivered Straight priceSettings .empty priceStart (priceWrite priceStart pricePath)
        (priceRun priceStart pricePath) ∧
      ClassName.Regular priceName ∧
      methodsOf (priceSettings.library.read? priceStart priceName) = some ["net"] ∧
      methodsOf (((priceRun priceStart pricePath).lookup
        (priceWrite priceStart pricePath) priceName).1.map (·.declaration)) = some ["gross"] := by
  have delivered : Delivered Straight priceSettings .empty priceStart
      (priceWrite priceStart pricePath) (priceRun priceStart pricePath) :=
    price_delivered price_straight
  refine ⟨price_plain [], delivered, price_regular, by decide +kernel, ?_⟩
  rw [(lookup_eq_read (price_plain []) delivered price_regular).1]
  decide +kernel

/-- Two other ways to the class file: with a step up, and through a link beside the directory. -/
private def priceAliases : List (Disk × FilePath) :=
  [(priceDisk priceFolder [(Text.Utf8.encode "lib".toList, .directory [])],
      .ofString "/lib/../src/Price.php"),
    (priceDisk priceFolder [(Text.Utf8.encode "alias".toList, .link (.ofString "/src"))],
      .ofString "/alias/Price.php")]

/-- The class file is a link to another file of the directory. -/
private def priceLinked : Disk :=
  priceDisk [(Text.Utf8.encode "Price.php".toList, .link (.ofString "/src/Stock.php")),
    (Text.Utf8.encode "Stock.php".toList, .file (priceFile "net"))] []

private def stockPath : FilePath := .ofString "/src/Stock.php"

/-- If the file of a loaded class is changed by another path than the one the class was read from, then
the next lookup still gives the class read before. This is so for a path with a step up, for one through
a link, and for the target of a class file that is a link. -/
theorem stale_behind_alias :
    (∀ other ∈ priceAliases, priceSettings.IsPlain other.1 ∧
      Delivered (fun _ _ => True) priceSettings .empty other.1 (priceWrite other.1 other.2)
        (priceRun other.1 other.2) ∧
      ClassName.Regular priceName ∧
      ((priceRun other.1 other.2).lookup (priceWrite other.1 other.2) priceName).1.map
        (·.declaration) ≠ priceSettings.library.read? (priceWrite other.1 other.2) priceName) ∧
    Delivered Straight priceSettings .empty priceLinked (priceWrite priceLinked stockPath)
      (priceRun priceLinked stockPath) ∧
    ((priceRun priceLinked stockPath).lookup (priceWrite priceLinked stockPath) priceName).1.map
      (·.declaration) ≠
        priceSettings.library.read? (priceWrite priceLinked stockPath) priceName := by
  have stale : ∀ other ∈ priceAliases,
      ((priceRun other.1 other.2).lookup (priceWrite other.1 other.2) priceName).1.map
        (·.declaration) ≠ priceSettings.library.read? (priceWrite other.1 other.2) priceName := by
    decide +kernel
  have plain : ∀ other ∈ priceAliases, priceSettings.IsPlain other.1 := by
    intro other member
    rcases List.mem_cons.mp member with rfl | member
    · exact price_plain _
    · rw [List.mem_singleton.mp member]
      exact price_plain _
  have file : priceLinked.root.get?
      [Text.Utf8.encode "src".toList, Text.Utf8.encode "Stock.php".toList] =
        some (.file (priceFile "net")) := by
    simp [priceLinked, priceDisk, DiskEntry.get?, DiskEntry.find?]
    decide
  have straight : Straight priceLinked stockPath :=
    ⟨_, by decide +kernel, fun front before target =>
      DiskEntry.get?_ne_link file (fun _ same => by cases same) before⟩
  refine ⟨fun other member => ⟨plain other member, price_delivered trivial, price_regular,
    stale other member⟩, price_delivered straight, ?_⟩
  decide +kernel

end Workspace

end FusionAtlas
