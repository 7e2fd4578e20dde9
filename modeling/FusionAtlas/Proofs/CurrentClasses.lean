import FusionAtlas.Proofs.ClassIdentity
import FusionAtlas.Proofs.FileMap
import FusionAtlas.Proofs.ResolvedClasses
import FusionAtlas.Proofs.WorkspaceRun

/-!
What open templates say of classes. A workspace that builds templates anew when a class file changes has
no open template that speaks of a class it has forgotten. While it builds them one after the other, the
ones still to be built are left out of account. Main statement: `Workspace.classes_current`.
-/

set_option autoImplicit false
set_option relaxedAutoImplicit false

namespace FusionAtlas

namespace TemplateFile

/-- A file that does not refer to a class file has no class from there. -/
theorem uri_ne_of_refersTo {file : TemplateFile} {uri : FileUri} (refers : ¬file.refersTo uri = true)
    {cls : LoadedClass} (member : cls ∈ file.classes) : cls.declaration.uri ≠ uri := by
  intro same
  apply refers
  obtain ⟨entry, listed, speaks⟩ := List.mem_filterMap.mp member
  rw [refersTo, Array.any_eq_true']
  exact ⟨entry, Array.mem_toList_iff.mp listed, by rw [speaks]; simpa using same⟩

end TemplateFile

theorem WorkspaceSettings.not_holds_library (settings : WorkspaceSettings) {cls : LoadedClass} :
    ¬settings.library.Holds cls := by
  rintro ⟨directory, member, entry, listed, -⟩
  obtain ⟨root, -, rfl⟩ := List.mem_map.mp member
  cases listed

namespace Workspace

variable {ws : Workspace} {disk : Disk} {uri : FileUri} {stale fewer : List FileUri}

theorem resolveFile_spec (disk : Disk) (keyed : ws.library.WellKeyed) {file : TemplateFile}
    (fresh : file.classes = []) :
    let resolved := ws.resolveFile disk file
    ClassLibrary.Grows disk ws.library resolved.2.library ∧ resolved.1.uri = file.uri ∧
      ClassLibrary.Holding resolved.1.classes resolved.2.library := by
  have start : ClassLibrary.Holding file.classes ws.library := by
    rw [fresh]
    exact ⟨keyed, fun _ member => (nomatch member)⟩
  exact file.resolve_holding ws.helpers disk ws.library start

/-- Steps do nothing to the library but look classes up. -/
theorem Step.grows {after : Workspace} (taken : Step disk ws after) (keyed : ws.library.WellKeyed) :
    ClassLibrary.Grows disk ws.library after.library := by
  cases taken with
  | lookup fqcn => exact .lookup ws.library disk fqcn
  | replace uri text tree errors =>
    exact (resolveFile_spec disk keyed (TemplateFile.ofTree_spec uri text tree errors).1).1
  | close uri => exact .refl
  | diagnose uri =>
    rw [library_diagnose]
    exact .refl
  | configure config => exact .refl
  | schedule batch cancelled nextToken => exact .refl

theorem Steps.grows {after : Workspace} (taken : Steps disk ws after)
    (keyed : ws.library.WellKeyed) : ClassLibrary.Grows disk ws.library after.library := by
  induction taken with
  | refl => exact .refl
  | tail _ step ih => exact ih.trans (Step.grows step (keyed.of_grows ih))

/-- What lookups and purges keep of the library is kept on every run. -/
theorem Runs.keeps {P : ClassLibrary → Prop} {after : Workspace}
    (lookup : ∀ library disk fqcn, P library → P (ClassLibrary.lookup library disk fqcn).2)
    (purge : ∀ library uri, P library → P (ClassLibrary.purge library uri))
    (runs : Runs ws after) (held : ws.library.WellKeyed ∧ P ws.library) :
    after.library.WellKeyed ∧ P after.library := by
  have steps : ∀ disk ws after, Step disk ws after → ws.library.WellKeyed ∧ P ws.library →
      after.library.WellKeyed ∧ P after.library := by
    intro disk ws after taken held
    have grows := taken.grows held.1
    exact ⟨held.1.of_grows grows, grows.preserves (fun library => lookup library disk) held.2⟩
  refine runs.preserves (P := fun ws => ws.library.WellKeyed ∧ P ws.library) steps ?_ held
  intro disk ws uri held
  have purged : (ws.purged uri).library.WellKeyed ∧ P (ws.purged uri).library :=
    ⟨held.1.purge uri, purge ws.library uri held.2⟩
  exact (ws.steps_forget disk uri).preserves
    (P := fun after => after.library.WellKeyed ∧ P after.library) (steps disk) purged

/-- In every state classes are loaded under their names, and their numbers are used up. -/
theorem Reachable.numbered {settings : WorkspaceSettings} {config : Configuration}
    (reachable : Reachable settings config ws) :
    ws.library.WellKeyed ∧ ws.library.Numbered := by
  refine reachable.runs.keeps (fun _ disk fqcn numbered => numbered.lookup disk fqcn)
    (fun _ uri numbered => numbered.purge uri) ⟨?_, ?_⟩
  · intro directory member entry listed
    exact absurd ⟨directory, member, entry, listed, rfl⟩ settings.not_holds_library
  · exact fun cls held => absurd held settings.not_holds_library

/-- A class that was loaded once and no longer is will not be loaded again. -/
theorem Runs.gone {settings : WorkspaceSettings} {config : Configuration} {between after : Workspace}
    {cls : LoadedClass} (reachable : Reachable settings config ws) (held : ws.library.Holds cls)
    (first : Runs ws between) (forgotten : ¬between.library.Holds cls) (more : Runs between after) :
    ¬after.library.Holds cls := by
  obtain ⟨keyed, numbered⟩ := reachable.numbered
  obtain ⟨stillKeyed, made⟩ := first.keeps (P := fun library => cls.identity < library.nextIdentity)
    (fun library disk fqcn made => Nat.lt_of_lt_of_le made (library.nextIdentity_le_lookup disk fqcn))
    (fun _ _ made => made) ⟨keyed, numbered cls held⟩
  obtain ⟨-, gone⟩ := more.keeps (fun _ disk fqcn gone => gone.lookup disk fqcn)
    (fun _ uri gone => gone.purge uri) ⟨stillKeyed, ClassLibrary.Gone.mk made forgotten⟩
  exact gone.missing

/-- Each open template that is not among the stale ones speaks only of classes that are loaded. -/
structure Current (stale : List FileUri) (ws : Workspace) : Prop where
  keyed : ws.library.WellKeyed
  held : ∀ uri snapshot, ws.snapshot? uri = some snapshot → uri ∉ stale →
    ClassLibrary.Holding snapshot.file.classes ws.library

namespace Current

theorem mono (current : Current fewer ws) (included : fewer ⊆ stale) : Current stale ws :=
  ⟨current.keyed, fun uri snapshot tracked other =>
    current.held uri snapshot tracked fun member => other (included member)⟩

theorem of_grows {after : Workspace} (current : Current stale ws)
    (grows : ClassLibrary.Grows disk ws.library after.library) (files : after.files = ws.files) :
    Current stale after := by
  refine ⟨current.keyed.of_grows grows, fun uri snapshot tracked other => ?_⟩
  rw [snapshot?, files] at tracked
  exact (current.held uri snapshot tracked other).of_grows grows

/-- A template that was built anew is no longer stale. -/
theorem replace (current : Current (uri :: stale) ws) (text : String) (tree : SyntaxTree)
    (errors : Array Template.SyntaxError) :
    Current stale (ws.replace disk (.ofTree uri text tree errors)) := by
  obtain ⟨none, name⟩ := TemplateFile.ofTree_spec uri text tree errors
  obtain ⟨grows, kept, holding⟩ := resolveFile_spec disk current.keyed none
  refine ⟨current.keyed.of_grows grows, ?_⟩
  intro other snapshot tracked fresh
  simp only [Workspace.replace, install, snapshot?, FileMap.get?_insert, kept, name] at tracked
  split at tracked
  · obtain rfl := Option.some.inj tracked
    exact holding
  · rename_i different
    have listed : other ∉ uri :: stale := by
      intro member
      rcases List.mem_cons.mp member with same | member
      · exact different same
      · exact fresh member
    exact (current.held other snapshot tracked listed).of_grows grows

theorem close (current : Current stale ws) (uri : FileUri) : Current stale (ws.close uri) := by
  refine ⟨current.keyed, fun other snapshot tracked fresh => ?_⟩
  simp only [Workspace.close, snapshot?, FileMap.get?_erase] at tracked
  split at tracked
  · cases tracked
  · exact current.held other snapshot tracked fresh

theorem step {after : Workspace} (taken : Step disk ws after) (current : Current stale ws) :
    Current stale after := by
  have grows := taken.grows current.keyed
  cases taken with
  | lookup fqcn => exact current.of_grows grows rfl
  | replace uri text tree errors =>
    exact (current.mono (List.subset_cons_self uri stale)).replace text tree errors
  | close uri => exact current.close uri
  | diagnose uri => exact current.of_grows grows (ws.files_diagnose uri)
  | configure config => exact current.of_grows grows rfl
  | schedule batch cancelled nextToken => exact current.of_grows grows rfl

theorem reresolve (current : Current (uri :: stale) ws) :
    Current stale (ws.reresolve disk uri).2 := by
  rw [reresolve_eq]
  cases tracked : ws.snapshot? uri with
  | some old => exact current.replace _ _ _
  | none =>
    refine ⟨current.keyed, fun other snapshot found fresh => ?_⟩
    have listed : other ∉ uri :: stale := by
      intro member
      rcases List.mem_cons.mp member with rfl | member
      · rw [tracked] at found
        cases found
      · exact fresh member
    exact current.held other snapshot found listed

/-- When all stale templates were built anew, none is left. -/
theorem reresolveAll (current : Current stale ws) : Current [] (ws.reresolveAll disk stale).2 := by
  rw [reresolveAll_eq]
  -- Building one template anew looks classes up, which leaves those built before it current.
  induction stale generalizing ws with
  | nil => exact current
  | cons uri stale ih => exact ih current.reresolve

/-- Only templates that refer to a class file become stale when its classes are forgotten. -/
theorem purged (current : Current [] ws) (uri : FileUri) :
    Current (ws.dependents uri) (ws.purged uri) := by
  refine ⟨current.keyed.purge uri, fun other snapshot tracked independent => ?_⟩
  have before : ws.snapshot? other = some snapshot := tracked
  have holding := current.held other snapshot before (List.not_mem_nil)
  have refers : ¬snapshot.file.refersTo uri = true := by
    intro refers
    apply independent
    rw [dependents, List.mem_filter, FileMap.mem_uris]
    refine ⟨?_, by rw [before]; simpa using refers⟩
    rw [FileMap.contains, ← snapshot?, before]
    rfl
  refine ⟨current.keyed.purge uri, fun cls member => ?_⟩
  exact ClassLibrary.loaded?_purge_of_ne (holding.2 cls member)
    (TemplateFile.uri_ne_of_refersTo refers member)

theorem forget (current : Current [] ws) (policy : ws.settings.policy = .reresolve) (disk : Disk)
    (uri : FileUri) : Current [] (ws.forget disk uri) := by
  rw [Workspace.forget, affected, policy]
  exact (current.purged uri).reresolveAll

end Current

variable {settings : WorkspaceSettings} {config : Configuration}

theorem Reachable.current (reachable : Reachable settings config ws)
    (policy : settings.policy = .reresolve) : Current [] ws := by
  have both : ws.settings = settings ∧ Current [] ws := by
    refine reachable.invariant (P := fun ws => ws.settings = settings ∧ Current [] ws) ?_ ?_ ?_
    · have first : Reachable settings config (make settings config) := .fresh
      exact ⟨rfl, first.numbered.1, fun _ _ tracked => (nomatch tracked)⟩
    · rintro disk ws after taken ⟨same, current⟩
      exact ⟨taken.settings.trans same, current.step taken⟩
    · rintro disk ws uri ⟨same, current⟩
      exact ⟨(ws.settings_forget disk uri).trans same,
        current.forget (by rw [same, policy]) disk uri⟩
  exact both.2

/-- If templates are built anew when a class file changes, then in every state each class that an entry
of an open template was made from is the one loaded under its name in the directory it belongs to. So no
entry speaks of a class that was loaded at some time and forgotten since, not even when its file was read
again. -/
theorem classes_current (reachable : Reachable settings config ws)
    (policy : settings.policy = .reresolve) {snapshot : Snapshot} {entry : Entry} {cls : LoadedClass}
    (tracked : ws.snapshot? uri = some snapshot) (member : entry ∈ snapshot.file.entries)
    (speaks : entry.content.class? = some cls) :
    (∃ number directory,
      ws.library.owner? cls.declaration.fqcn = some (number, directory) ∧
      ws.library.directories[number]? = some directory ∧
      directory.loaded? cls.declaration.fqcn = some cls) ∧
    ∀ before between, Reachable settings config before → before.library.Holds cls →
      Runs before between → Runs between ws → between.library.Holds cls := by
  have holding := (reachable.current policy).held uri snapshot tracked List.not_mem_nil
  have listed : cls ∈ snapshot.file.classes :=
    List.mem_filterMap.mpr ⟨entry, Array.mem_toList_iff.mpr member, speaks⟩
  have loaded := holding.2 cls listed
  refine ⟨?_, fun before between started held first more => ?_⟩
  · obtain ⟨⟨number, directory⟩, owner, found⟩ := Option.bind_eq_some_iff.mp loaded
    exact ⟨number, directory, owner, (ClassLibrary.getElem?_of_owner? owner).1, found⟩
  · by_contra forgotten
    exact Runs.gone started held first forgotten more (ClassLibrary.holds_of_loaded? loaded)

private def thingSettings : WorkspaceSettings :=
  { WorkspaceSettings.standard with roots := [("Acme", .ofString "/src")], policy := .reresolve }

private def thingDisk (text : String) : Disk :=
  ⟨.directory [(Text.Utf8.encode "src".toList, .directory
    [(Text.Utf8.encode "Thing.php".toList, .file (Text.Utf8.encode text.toList))])]⟩

private def thingTemplate : FileUri := ⟨"file:///Root.fusion"⟩

private def thingBefore : Disk := thingDisk "<?php\nnamespace Acme;\nclass Thing {}\n"

private def thingAfter : Disk := thingDisk "<?php\nnamespace Acme;\nfinal class Thing {}\n"

private def thingOpened : Operation := .openText thingTemplate "@class = 'Acme\\\\Thing'\n"

private def thingChanged : Operation := .event ⟨.ofPath (.ofString "/src/Thing.php"), .changed⟩

/-- A template that names a class is opened, then the file of the class changes. -/
private def thingRun : Workspace :=
  ((make thingSettings .empty).perform thingBefore thingOpened).perform thingAfter thingChanged

/-- Behind the change the template speaks of the class loaded second, which is the one kept. -/
theorem class_of_changed_file :
    Reachable thingSettings .empty thingRun ∧ thingSettings.policy = .reresolve ∧
      ∃ snapshot entry cls,
        thingRun.snapshot? thingTemplate = some snapshot ∧ entry ∈ snapshot.file.entries ∧
        entry.content.class? = some cls ∧ cls.identity = 1 ∧
        ∃ number directory,
          thingRun.library.owner? cls.declaration.fqcn = some (number, directory) ∧
          thingRun.library.directories[number]? = some directory ∧
          directory.loaded? cls.declaration.fqcn = some cls := by
  have reachable : Reachable thingSettings .empty thingRun :=
    (Reachable.fresh.perform thingBefore thingOpened).perform thingAfter thingChanged
  have opened : (thingRun.snapshot? thingTemplate).map (fun snapshot =>
      snapshot.file.classes.map (·.identity)) = some [1] := by decide +kernel
  obtain ⟨snapshot, tracked, listed⟩ := Option.map_eq_some_iff.mp opened
  obtain ⟨cls, classes, identity⟩ := List.map_eq_singleton_iff.mp listed
  have member : cls ∈ snapshot.file.classes := by rw [classes]; exact List.mem_singleton_self cls
  obtain ⟨entry, among, speaks⟩ := List.mem_filterMap.mp member
  have among : entry ∈ snapshot.file.entries := Array.mem_toList_iff.mp among
  exact ⟨reachable, rfl, snapshot, entry, cls, tracked, among, speaks, identity,
    (classes_current reachable rfl tracked among speaks).1⟩

end Workspace

end FusionAtlas
