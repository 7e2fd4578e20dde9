import FusionAtlas.Proofs.Snapshots

/-!
Opening templates in any order. Each template is built the same whatever was opened before, though classes
may be loaded already, and the classes kept at the end are those that any of the templates alone would have
had loaded. Main statements: `Workspace.openAll_spec`, and `Workspace.openAll_perm` for two orders.
-/

set_option autoImplicit false
set_option relaxedAutoImplicit false

namespace FusionAtlas

namespace TemplateFile

@[simp] theorem withTag_anonymous (file : TemplateFile) (tag : NodeTag) :
    file.anonymous.withTag tag = (file.withTag tag).map Entry.anonymous := by
  rw [withTag, withTag, List.map_filterMap]
  refine List.filterMap_congr fun id _ => ?_
  exact Array.getElem?_map

/-- Diagnostics do not depend on when classes were loaded. -/
@[simp] theorem diagnostics_anonymous (file : TemplateFile) :
    file.anonymous.diagnostics = file.diagnostics := by
  have each (entry : Entry) : file.anonymous.entryDiagnostics entry.anonymous = file.entryDiagnostics entry := by
    obtain ⟨id, tag, content, range, span⟩ := entry
    cases content <;> rfl
  rw [diagnostics, diagnostics, withTag_anonymous, List.flatMap_map]
  simp only [each]
  rfl

end TemplateFile

namespace Workspace

open ClassLibrary (Grows)

variable {ws after : Workspace} {disk : Disk}

theorem fst_build (ws : Workspace) (disk : Disk) (uri : FileUri) (text : String) :
    (ws.build disk uri text).1 =
      (((TemplateFile.ofText uri text).resolve ws.helpers disk).run ws.library).1.file := rfl

theorem library_build (ws : Workspace) (disk : Disk) (uri : FileUri) (text : String) :
    (ws.build disk uri text).2.library =
      (((TemplateFile.ofText uri text).resolve ws.helpers disk).run ws.library).2 := rfl

/-- Other templates were opened since, but the settings are the same. -/
structure OpenedSince (disk : Disk) (ws after : Workspace) : Prop where
  config : after.config = ws.config
  library : Grows disk ws.library after.library

namespace OpenedSince

/-- A template is built the same, whatever was opened in between. -/
theorem build (since : OpenedSince disk ws after) (uri : FileUri) (text : String) :
    (after.build disk uri text).1.anonymous = (ws.build disk uri text).1.anonymous ∧
    OpenedSince disk ws (after.build disk uri text).2 ∧
    ∀ number name declared, (after.build disk uri text).2.library.Keeps number name declared ↔
      after.library.Keeps number name declared ∨
        (ws.build disk uri text).2.library.Keeps number name declared := by
  have helpers : after.helpers = ws.helpers := congrArg BoundHelpers.ofConfiguration since.config
  have resolves := TemplateFile.resolve_inStep ws.helpers disk (.ofText uri text)
  obtain ⟨names, first, second, same⟩ :=
    resolves.alike ws.library after.library (.of_grows since.library)
  refine ⟨?_, ⟨since.config, ?_⟩, fun number name declared => ?_⟩
  · rw [fst_build, fst_build, helpers]
    exact (congrArg Resolving.file same).symm
  · rw [library_build, helpers]
    exact since.library.trans (resolves.grows after.library)
  · rw [library_build, library_build, helpers, first, second]
    exact ClassLibrary.keeps_lookupAll_of_grows since.library names number name declared

end OpenedSince

/-- Open templates, each with its text, one after the other. -/
def openAll (ws : Workspace) (disk : Disk) (files : List (FileUri × String)) : Workspace :=
  files.foldl (fun ws file => (ws.openText disk file.1 file.2).2) ws

/-- Behind opening some templates, each once, each of them is as it is built alone, all others are as they
were, and the classes are kept that were kept before or that one of the templates alone has loaded. -/
theorem openAll_spec (ws : Workspace) (disk : Disk) {files : List (FileUri × String)}
    (distinct : (files.map Prod.fst).Nodup) :
    let opened := ws.openAll disk files
    OpenedSince disk ws opened ∧
    (∀ file ∈ files,
      (opened.snapshot? file.1).map (·.file.anonymous) =
        some (ws.build disk file.1 file.2).1.anonymous ∧
      opened.diagnostics.get? file.1 = some (ws.build disk file.1 file.2).1.diagnostics) ∧
    (∀ uri ∉ files.map Prod.fst, opened.snapshot? uri = ws.snapshot? uri ∧
      opened.diagnostics.get? uri = ws.diagnostics.get? uri) ∧
    ∀ number name declared, opened.library.Keeps number name declared ↔
      ws.library.Keeps number name declared ∨
        ∃ file ∈ files, (ws.build disk file.1 file.2).2.library.Keeps number name declared := by
  -- From the end: the template opened last is the only one that the last step touches.
  induction files using List.reverseRecOn with
  | nil =>
    refine ⟨⟨rfl, .refl⟩, fun _ member => (nomatch member), fun _ _ => ⟨rfl, rfl⟩, fun _ _ _ => ?_⟩
    exact (or_iff_left fun ⟨_, member, _⟩ => nomatch member).symm
  | append_singleton files file ih =>
    rw [List.map_append, List.nodup_append] at distinct
    obtain ⟨earlier, -, apart⟩ := distinct
    obtain ⟨since, built, others, kept⟩ := ih earlier
    have last : ws.openAll disk (files ++ [file]) =
        ((ws.openAll disk files).openText disk file.1 file.2).2 := List.foldl_concat ..
    rw [last]
    obtain ⟨config, library, snapshots, diagnostics, -⟩ :=
      (ws.openAll disk files).openText_spec disk file.1 file.2
    obtain ⟨same, behind, keeps⟩ := since.build file.1 file.2
    have different : ∀ other ∈ files, other.1 ≠ file.1 := fun other member =>
      apart other.1 (List.mem_map_of_mem member) file.1 (List.mem_singleton_self _)
    refine ⟨⟨config.trans since.config, library ▸ behind.library⟩, ?_, ?_, ?_⟩
    · intro other member
      rcases List.mem_append.mp member with member | member
      · rw [snapshots, diagnostics, if_neg (different other member), if_neg (different other member)]
        exact built other member
      · obtain rfl := List.mem_singleton.mp member
        rw [snapshots, diagnostics, if_pos rfl, if_pos rfl, Option.map_some, same,
          ← TemplateFile.diagnostics_anonymous, same, TemplateFile.diagnostics_anonymous]
        exact ⟨rfl, rfl⟩
    · intro uri absent
      rw [List.map_append, List.mem_append, not_or] at absent
      have other : uri ≠ file.1 := fun same => absent.2 (same ▸ List.mem_singleton_self _)
      rw [snapshots, diagnostics, if_neg other, if_neg other]
      exact others uri absent.1
    · intro number name declared
      rw [library, keeps, kept, or_assoc]
      refine or_congr_right ?_
      simp only [List.mem_append, List.mem_singleton, or_and_right, exists_or, exists_eq_left]

/-- Templates with different names may be opened in any order. Identities apart, each of them has the
snapshot that is built of it alone, and the same templates are open, with the same diagnostics, and the same
classes are kept. -/
theorem openAll_perm (ws : Workspace) (disk : Disk) {files other : List (FileUri × String)}
    (distinct : (files.map Prod.fst).Nodup) (reordered : files.Perm other) :
    let first := ws.openAll disk files
    let second := ws.openAll disk other
    (∀ uri, (first.snapshot? uri).map (·.file.anonymous) =
      (second.snapshot? uri).map (·.file.anonymous)) ∧
    (∀ uri, first.diagnostics.get? uri = second.diagnostics.get? uri) ∧
    (∀ number name declared,
      first.library.Keeps number name declared ↔ second.library.Keeps number name declared) ∧
    ∀ file ∈ files, (first.snapshot? file.1).map (·.file.anonymous) =
      some (ws.build disk file.1 file.2).1.anonymous := by
  have distinct' : (other.map Prod.fst).Nodup := (reordered.map Prod.fst).nodup_iff.mp distinct
  obtain ⟨-, built, others, kept⟩ := ws.openAll_spec disk distinct
  obtain ⟨-, built', others', kept'⟩ := ws.openAll_spec disk distinct'
  have each (uri : FileUri) :
      ((ws.openAll disk files).snapshot? uri).map (·.file.anonymous) =
        ((ws.openAll disk other).snapshot? uri).map (·.file.anonymous) ∧
      (ws.openAll disk files).diagnostics.get? uri = (ws.openAll disk other).diagnostics.get? uri := by
    by_cases opened : uri ∈ files.map Prod.fst
    · obtain ⟨file, member, rfl⟩ := List.mem_map.mp opened
      obtain ⟨snapshot, diagnostics⟩ := built file member
      obtain ⟨snapshot', diagnostics'⟩ := built' file (reordered.mem_iff.mp member)
      exact ⟨snapshot.trans snapshot'.symm, diagnostics.trans diagnostics'.symm⟩
    · obtain ⟨snapshot, diagnostics⟩ := others uri opened
      obtain ⟨snapshot', diagnostics'⟩ :=
        others' uri fun member => opened ((reordered.map Prod.fst).mem_iff.mpr member)
      rw [snapshot, snapshot', diagnostics, diagnostics']
      exact ⟨rfl, rfl⟩
  refine ⟨fun uri => (each uri).1, fun uri => (each uri).2, ?_, fun file member => (built file member).1⟩
  intro number name declared
  rw [kept, kept']
  simp only [reordered.mem_iff]

private def orchard : Workspace :=
  make { WorkspaceSettings.standard with roots := [("Acme", .ofString "/src")] } .empty

private def orchardDisk : Disk :=
  ⟨.directory [(Text.Utf8.encode "src".toList, .directory
    [(Text.Utf8.encode "Apple.php".toList, .file (Text.Utf8.encode
        "<?php\nnamespace Acme;\nclass Apple {}\n".toList)),
      (Text.Utf8.encode "Pear.php".toList, .file (Text.Utf8.encode
        "<?php\nnamespace Acme;\nclass Pear {}\n".toList))])]⟩

private def appleTemplate : FileUri := ⟨"file:///Apple.fusion"⟩

private def orchardFiles : List (FileUri × String) :=
  [(appleTemplate, "@class = 'Acme\\\\Apple'\n"),
    (⟨"file:///Pear.fusion"⟩, "@class = 'Acme\\\\Pear'\n")]

/-- The identities of the classes in the first template behind opening templates in some order. -/
private def appleIdentities (files : List (FileUri × String)) : Option (List Nat) :=
  ((orchard.openAll orchardDisk files).snapshot? appleTemplate).map fun snapshot =>
    snapshot.file.classes.map (·.identity)

/-- The class of a template that is opened second is loaded second, and that is the only difference. -/
theorem openAll_perm_orchard :
    (orchardFiles.map Prod.fst).Nodup ∧ orchardFiles.Perm orchardFiles.reverse ∧
      appleIdentities orchardFiles = some [0] ∧ appleIdentities orchardFiles.reverse = some [1] ∧
      ((orchard.openAll orchardDisk orchardFiles).snapshot? appleTemplate).map (·.file.anonymous) =
        ((orchard.openAll orchardDisk orchardFiles.reverse).snapshot? appleTemplate).map
          (·.file.anonymous) := by
  have distinct : (orchardFiles.map Prod.fst).Nodup := by decide
  have reordered : orchardFiles.Perm orchardFiles.reverse := (List.reverse_perm _).symm
  obtain ⟨snapshots, -⟩ := orchard.openAll_perm orchardDisk distinct reordered
  exact ⟨distinct, reordered, by decide +kernel, by decide +kernel, snapshots appleTemplate⟩

end Workspace

end FusionAtlas
