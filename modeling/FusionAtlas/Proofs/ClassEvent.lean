import FusionAtlas.Proofs.ClassFile
import FusionAtlas.Proofs.CurrentClasses
import FusionAtlas.Proofs.UriExtension

/-!
What a workspace forgets when it is told that the file of a class changed. Classes are read from files
named with the extension that was set, leading dots left out; a change counts as one of a class file if
its uri has the extension as it was set. Main statement: `Workspace.event_forgets`.
-/

set_option autoImplicit false
set_option relaxedAutoImplicit false

namespace FusionAtlas

namespace Disk

variable {disk : Disk} {path : FilePath} {extension written : String}

theorem not_suffix_of_namesDirectory (plain : namesDirectory path = false) :
    ¬[FilePath.separator, FilePath.dot] <:+ path.bytes := by
  rintro ⟨front, bytes⟩
  simp [namesDirectory, ← bytes] at plain

/-- A file whose path ends in a dot and an extension, leading dots left out, is named with the extension
if that holds no dot and no slash. The extension may be empty: no file is a step up. -/
theorem components_of_extension (file : disk.isFile path = true)
    (trimmed : written.toList = extension.toList.dropWhile (· == '.'))
    (ending : FilePath.dot :: Text.Utf8.encode written.toList <:+ path.bytes)
    (noDot : '.' ∉ extension.toList) (noSlash : '/' ∉ extension.toList) :
    ∃ front stem, path.components =
      front ++ [.name (stem ++ FilePath.dot :: Text.Utf8.encode extension.toList)] := by
  have whole : written.toList = extension.toList := by
    rw [trimmed, List.dropWhile_eq_self_iff]
    intro bound
    rw [beq_iff_eq]
    intro first
    exact noDot (first ▸ List.getElem_mem bound)
  rw [whole] at ending
  rcases List.eq_nil_or_concat (Text.Utf8.encode extension.toList) with empty | ⟨start, b, split⟩
  · rw [empty] at ending ⊢
    obtain ⟨plain, name, last⟩ := fileName_of_isFile file
    exact FilePath.components_of_dot ending (not_suffix_of_namesDirectory plain) last
  · rw [List.concat_eq_append] at split
    have last : [b] <:+ FilePath.dot :: Text.Utf8.encode extension.toList := by
      rw [split, ← List.cons_append]
      exact List.suffix_append _ _
    have other : b ≠ FilePath.dot := by
      rintro rfl
      have member : FilePath.dot ∈ Text.Utf8.encode extension.toList := by rw [split]; simp
      exact noDot (Text.Utf8.mem_of_mem_encode member (by decide))
    refine FilePath.components_of_suffix ending ?_ last other
    intro member
    rcases List.mem_cons.mp member with same | inside
    · exact absurd same (by decide)
    · exact noSlash (Text.Utf8.mem_of_mem_encode inside (by decide))

end Disk

namespace ClassLibrary

variable {library : ClassLibrary} {disk : Disk} {fqcn extension : String} {cls : LoadedClass}
  {uri : FileUri}

/-- What is loaded stays loaded, under whatever name, when another class is looked up. -/
theorem Holds.lookup (held : library.Holds cls) (disk : Disk) (fqcn : String) :
    (library.lookup disk fqcn).2.Holds cls := by
  rcases library.lookup_cases disk fqcn with
    ⟨found, -, result⟩ | ⟨-, -, result⟩ | ⟨n, directory, declared, -, -, owner, -, result⟩
  · rw [result]
    exact held
  · rw [result]
    exact held
  · rw [result]
    obtain ⟨other, member, entry, listed, same⟩ := held
    obtain ⟨m, place⟩ := List.mem_iff_getElem?.mp member
    have numbered := (getElem?_of_owner? owner).1
    by_cases here : n = m
    · subst here
      rw [numbered] at place
      obtain rfl := Option.some.inj place
      have bound := (List.getElem?_eq_some_iff.mp numbered).1
      exact ⟨_, List.mem_iff_getElem?.mpr ⟨n, List.getElem?_set_self bound⟩, entry,
        List.mem_append_left _ listed, same⟩
    · have kept : (library.directories.set n
          (directory.keep fqcn ⟨library.nextIdentity, declared⟩))[m]? = some other := by
        rw [List.getElem?_set_ne here, place]
      exact ⟨other, List.mem_of_getElem? kept, entry, listed, same⟩

/-- A class of a purged file is not loaded, whatever it was loaded as. -/
theorem not_holds_purge (library : ClassLibrary) (cls : LoadedClass) :
    ¬(library.purge cls.declaration.uri).Holds cls := by
  rintro ⟨directory, member, entry, listed, rfl⟩
  obtain ⟨old, -, rfl⟩ := List.mem_map.mp member
  have other := (List.mem_filter.mp listed).2
  simp at other

/-- Directories read files with the extension, and loaded classes come from such files. -/
structure Sourced (extension : String) (library : ClassLibrary) : Prop where
  directories : ∀ directory ∈ library.directories, directory.extension = extension
  files : ∀ cls, library.Holds cls → ∃ (path : FilePath) (disk : Disk),
    cls.declaration.uri = .ofPath path ∧ disk.isFile path = true ∧
      FilePath.dot :: Text.Utf8.encode extension.toList <:+ path.bytes

namespace Sourced

theorem lookup (sourced : Sourced extension library) (disk : Disk) (fqcn : String) :
    Sourced extension (library.lookup disk fqcn).2 := by
  rcases library.lookup_cases disk fqcn with
    ⟨found, -, result⟩ | ⟨-, -, result⟩ | ⟨n, directory, declared, -, -, owner, content, result⟩
  · rw [result]
    exact ⟨sourced.directories, sourced.files⟩
  · rw [result]
    exact sourced
  · rw [result]
    have place := List.mem_of_getElem? (getElem?_of_owner? owner).1
    have extended := sourced.directories directory place
    constructor
    · intro other member
      rcases List.mem_or_eq_of_mem_set member with old | rfl
      · exact sourced.directories other old
      · exact extended
    · rintro cls ⟨other, member, entry, listed, rfl⟩
      rcases List.mem_or_eq_of_mem_set member with old | rfl
      · exact sourced.files entry.2 ⟨other, old, entry, listed, rfl⟩
      · rcases List.mem_append.mp listed with old | new
        · exact sourced.files entry.2 ⟨directory, place, entry, old, rfl⟩
        · obtain ⟨candidate, -, found, file, -, -, uri⟩ := ClassDirectory.read_eq_ok content
          have ending := ClassDirectory.suffix_extension found
          rw [extended] at ending
          rw [List.mem_singleton.mp new]
          exact ⟨candidate.path, disk, uri, file, ending⟩

theorem purge (sourced : Sourced extension library) (uri : FileUri) :
    Sourced extension (library.purge uri) := by
  constructor
  · intro directory member
    obtain ⟨old, place, rfl⟩ := List.mem_map.mp member
    exact sourced.directories old place
  · exact fun cls held => sourced.files cls (holds_of_purge held)

end Sourced

end ClassLibrary

namespace Workspace

variable {settings : WorkspaceSettings} {config : Configuration} {ws : Workspace} {disk : Disk}
  {cls : LoadedClass}

theorem Reachable.settings_eq (reachable : Reachable settings config ws) : ws.settings = settings := by
  refine reachable.invariant (P := fun ws => ws.settings = settings) rfl ?_ ?_
  · exact fun disk ws after taken same => taken.settings.trans same
  · exact fun disk ws uri same => (ws.settings_forget disk uri).trans same

/-- In every state classes come from files with the extension that was set, without leading dots. -/
theorem Reachable.sourced (reachable : Reachable settings config ws) :
    ws.library.Sourced (String.ofList (settings.hostExtension.toList.dropWhile (· == '.'))) := by
  have fresh : settings.library.Sourced
      (String.ofList (settings.hostExtension.toList.dropWhile (· == '.'))) := by
    constructor
    · intro directory member
      obtain ⟨root, -, rfl⟩ := List.mem_map.mp member
      rfl
    · exact fun cls held => absurd held settings.not_holds_library
  have first : Reachable settings config (make settings config) := .fresh
  exact (reachable.runs.keeps (fun _ disk fqcn sourced => sourced.lookup disk fqcn)
    (fun _ uri sourced => sourced.purge uri) ⟨first.numbered.1, fresh⟩).2

theorem library_scheduleAll (ws : Workspace) : ws.scheduleAll.library = ws.library := by
  unfold scheduleAll replaceBatch
  split
  · rfl
  · rfl

/-- What was loaded before is forgotten with its file, also if templates are built anew then. -/
theorem not_holds_forget (keyed : ws.library.WellKeyed) (numbered : ws.library.Numbered)
    (held : ws.library.Holds cls) (disk : Disk) :
    ¬(ws.forget disk cls.declaration.uri).library.Holds cls := by
  have gone : (ws.purged cls.declaration.uri).library.Gone cls :=
    ⟨numbered cls held, ws.library.not_holds_purge cls⟩
  have grows := (ws.steps_forget disk cls.declaration.uri).grows (keyed.purge _)
  exact (grows.preserves (P := ClassLibrary.Gone cls) (fun _ fqcn gone => gone.lookup disk fqcn)
    gone).missing

theorem purged_openFromDisk (ws : Workspace) (disk : Disk) (uri : FileUri) :
    (ws.openFromDisk disk uri).1.purged = false := by
  unfold openFromDisk
  split <;> rfl

theorem purged_handleTemplateEvent (ws : Workspace) (disk : Disk) (event : FileEvent) :
    (ws.handleTemplateEvent disk event).1.purged = false := by
  unfold handleTemplateEvent
  split
  · split <;> rfl
  · split
    · exact ws.purged_openFromDisk disk event.uri
    · rfl
  · exact ws.purged_openFromDisk disk event.uri

/-- An event for the file of a loaded class forgets the class if the uri has the extension of classes;
else it reports no purge, and leaves the class loaded. -/
theorem handleEvent_of_holds (keyed : ws.library.WellKeyed) (numbered : ws.library.Numbered)
    (held : ws.library.Holds cls) (disk : Disk) {change : FileChange} (stays : change ≠ .created) :
    let handled := ws.handleEvent disk ⟨cls.declaration.uri, change⟩
    if cls.declaration.uri.hasExtension ws.settings.hostExtension then
      handled.1.purged = true ∧ ¬handled.2.library.Holds cls
    else handled.1.purged = false ∧ handled.2.library.Holds cls := by
  have loaded := ClassLibrary.loadedFrom_ne_nil held
  have kept {after : Workspace} (steps : Steps disk ws after) : after.library.Holds cls :=
    (steps.grows keyed).preserves (P := fun library => library.Holds cls)
      (fun _ fqcn held => held.lookup disk fqcn) held
  by_cases host : cls.declaration.uri.hasExtension ws.settings.hostExtension = true
  · simp only [handleEvent, if_pos host]
    rw [handleHostEvent_eq, if_neg (by simp [stays, loaded])]
    constructor
    · rfl
    · rw [library_scheduleAll]
      exact not_holds_forget keyed numbered held disk
  · simp only [handleEvent, if_neg host]
    split
    · constructor
      · exact ws.purged_handleTemplateEvent disk _
      · exact kept (ws.steps_handleTemplateEvent disk _)
    · exact ⟨rfl, held⟩

/-- If the extension of classes holds no dot and nothing that is escaped in uris, no class survives the
change or removal of its own file: the event reports a purge, and the class is gone from all directories.
With any other extension each class survives, and no purge is reported. -/
theorem event_forgets (reachable : Reachable settings config ws) (held : ws.library.Holds cls)
    (disk : Disk) {change : FileChange} (stays : change ≠ .created) :
    let handled := ws.handleEvent disk ⟨cls.declaration.uri, change⟩
    if FileUri.IsExtension settings.hostExtension then
      handled.1.purged = true ∧ ¬handled.2.library.Holds cls
    else handled.1.purged = false ∧ handled.2.library.Holds cls := by
  obtain ⟨keyed, numbered⟩ := reachable.numbered
  obtain ⟨path, before, uri, file, ending⟩ := reachable.sourced.files cls held
  have agree := FileUri.hasExtension_iff
    (Disk.components_of_extension file String.toList_ofList ending)
  have outcome := handleEvent_of_holds keyed numbered held disk stays
  rw [reachable.settings_eq, uri] at outcome
  rw [uri]
  simpa only [agree] using outcome

/-- A namespace whose classes have the given extension. -/
private def toolSettings (extension : String) : WorkspaceSettings :=
  { WorkspaceSettings.standard with
    roots := [("Acme", .ofString "/src")]
    hostExtension := extension
    policy := .reresolve }

private def toolDisk (path : FilePath) (text : String) : Disk :=
  Disk.write .empty path (Text.Utf8.encode text.toList)

/-- A template is opened that names a class, which loads the class from its file. -/
private def toolRun (extension : String) (path : FilePath) : Workspace :=
  (make (toolSettings extension) .empty).perform
    (toolDisk path "<?php\nnamespace Acme;\nclass Tool {}\n")
    (.openText ⟨"file:///Root.fusion"⟩ "@class = 'Acme\\\\Tool'\n")

/-- Then the file is changed. -/
private def toolEvent (extension : String) (path : FilePath) : EventOutcome × Workspace :=
  (toolRun extension path).handleEvent
    (toolDisk path "<?php\nnamespace Acme;\nfinal class Tool {}\n") ⟨.ofPath path, .changed⟩

private def toolLoaded (ws : Workspace) : Option LoadedClass := ws.library.loaded? "Acme\\Tool"

private theorem tool_reachable (extension : String) (path : FilePath) :
    Reachable (toolSettings extension) .empty (toolRun extension path) :=
  Reachable.fresh.perform _ _

/-- The class of a file `Tool.inc` is forgotten when the file changes, and a class with another number
is loaded in its place. -/
theorem event_forgets_tool :
    ∃ cls, Reachable (toolSettings "inc") .empty (toolRun "inc" (.ofString "/src/Tool.inc")) ∧
      (toolRun "inc" (.ofString "/src/Tool.inc")).library.Holds cls ∧
      FileChange.changed ≠ .created ∧
      (toolEvent "inc" (.ofString "/src/Tool.inc")).1.purged = true ∧
      ¬(toolEvent "inc" (.ofString "/src/Tool.inc")).2.library.Holds cls ∧
      (toolLoaded (toolEvent "inc" (.ofString "/src/Tool.inc")).2).map (·.identity) =
        some (cls.identity + 1) := by
  have found : (toolLoaded (toolRun "inc" (.ofString "/src/Tool.inc"))).map
      (fun cls => (cls.declaration.uri, cls.identity)) =
        some (.ofPath (.ofString "/src/Tool.inc"), 0) := by decide +kernel
  obtain ⟨cls, loaded, values⟩ := Option.map_eq_some_iff.mp found
  obtain ⟨uri, number⟩ := Prod.mk.inj values
  have held := ClassLibrary.holds_of_loaded? loaded
  have plain : FileUri.IsExtension (toolSettings "inc").hostExtension := by decide
  have stays : FileChange.changed ≠ .created := by decide
  have handled := event_forgets (tool_reachable "inc" (.ofString "/src/Tool.inc")) held
    (toolDisk (.ofString "/src/Tool.inc") "<?php\nnamespace Acme;\nfinal class Tool {}\n")
    stays
  rw [if_pos plain, uri] at handled
  refine ⟨cls, tool_reachable _ _, held, stays, handled.1, handled.2, ?_⟩
  rw [number]
  decide +kernel

/-- A class that was read from its file is still there after the file changed, and the event reports no
purge. -/
private def ToolSurvives (extension : String) (path : FilePath) : Prop :=
  Reachable (toolSettings extension) .empty (toolRun extension path) ∧
    ∃ cls, (toolRun extension path).library.Holds cls ∧ cls.declaration.uri = .ofPath path ∧
      (toolEvent extension path).1.purged = false ∧ (toolEvent extension path).2.library.Holds cls

private theorem tool_survives {extension : String} {path : FilePath}
    (found : (toolLoaded (toolRun extension path)).map (·.declaration.uri) = some (.ofPath path))
    (silent : (toolEvent extension path).1.purged = false)
    (same : toolLoaded (toolEvent extension path).2 = toolLoaded (toolRun extension path)) :
    ToolSurvives extension path := by
  obtain ⟨cls, loaded, uri⟩ := Option.map_eq_some_iff.mp found
  have after : toolLoaded (toolEvent extension path).2 = some cls := same.trans loaded
  exact ⟨tool_reachable _ _, cls, ClassLibrary.holds_of_loaded? loaded, uri, silent,
    ClassLibrary.holds_of_loaded? after⟩

/-- So it is with an extension that has a leading dot, a dot inside, or a letter that is escaped in
uris. -/
theorem class_survives_own_event :
    ToolSurvives ".php" (.ofString "/src/Tool.php") ∧
      ToolSurvives "inc.php" (.ofString "/src/Tool.inc.php") ∧
      ToolSurvives "phß" (.ofString "/src/Tool.phß") := by
  refine ⟨?_, ?_, ?_⟩
  · exact tool_survives (by decide +kernel) (by decide +kernel) (by decide +kernel)
  · exact tool_survives (by decide +kernel) (by decide +kernel) (by decide +kernel)
  · exact tool_survives (by decide +kernel) (by decide +kernel) (by decide +kernel)

end Workspace

end FusionAtlas
