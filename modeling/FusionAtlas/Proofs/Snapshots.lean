import FusionAtlas.Proofs.FileMap
import FusionAtlas.Proofs.ResolutionPlan
import FusionAtlas.Proofs.WorkspaceRun

/-!
The snapshots of a workspace. A template that is built anew gets a snapshot with the next number, and
nothing else about the open templates changes; so numbers tell snapshots apart in every state. Main
statements: `Workspace.replace_eq`, `Workspace.openText_spec` and `Workspace.Reachable.snapshotsNumbered`.
-/

set_option autoImplicit false
set_option relaxedAutoImplicit false

namespace FusionAtlas

namespace Workspace

theorem uri_resolveFile (ws : Workspace) (disk : Disk) (uri : FileUri) (text : String)
    (tree : SyntaxTree) (errors : Array Template.SyntaxError) :
    (ws.resolveFile disk (.ofTree uri text tree errors)).1.uri = uri := by
  let file := TemplateFile.ofTree uri text tree errors
  obtain ⟨-, named, -⟩ := TemplateFile.ofTree_entries uri text tree errors
  obtain ⟨put, -⟩ := TemplateFile.resolve_ofTree uri text tree errors ws.helpers disk ws.library
  have inserted : (ws.resolveFile disk file).1 = (file.insertAll _).2 := congrArg Resolving.file put
  rw [inserted]
  exact (TemplateFile.Extends.insertAll file _).uri.trans named

/-- A template that is built anew gets the next snapshot and its diagnostics. -/
theorem replace_eq (ws : Workspace) (disk : Disk) (uri : FileUri) (text : String)
    (tree : SyntaxTree) (errors : Array Template.SyntaxError) :
    let built := ws.resolveFile disk (.ofTree uri text tree errors)
    ws.replace disk (.ofTree uri text tree errors) =
      { built.2 with
        files := ws.files.insert uri ⟨ws.nextSnapshot, built.1⟩
        diagnostics := ws.diagnostics.insert uri built.1.diagnostics
        nextSnapshot := ws.nextSnapshot + 1 } := by
  intro built
  have named : built.1.uri = uri := ws.uri_resolveFile disk uri text tree errors
  change (built.2.install built.1).2 = _
  rw [install, named]
  rfl

theorem replaceBatch_eq (ws : Workspace) (pending : List FileUri) :
    ∃ cancelled, ws.replaceBatch pending =
      { ws with
        batch := some ⟨pending, ws.nextToken⟩, cancelled, nextToken := ws.nextToken + 1 } := by
  unfold replaceBatch
  split
  · exact ⟨_, rfl⟩
  · exact ⟨_, rfl⟩

theorem restartBatch_eq (ws : Workspace) :
    ∃ batch cancelled nextToken, ws.restartBatch = { ws with batch, cancelled, nextToken } := by
  unfold restartBatch
  split
  · obtain ⟨cancelled, result⟩ := ws.replaceBatch_eq _
    exact ⟨_, cancelled, _, result⟩
  · exact ⟨ws.batch, ws.cancelled, ws.nextToken, rfl⟩

/-- What opening one template does. -/
theorem openText_spec (ws : Workspace) (disk : Disk) (uri : FileUri) (text : String) :
    let opened := (ws.openText disk uri text).2
    let built := ws.build disk uri text
    opened.config = ws.config ∧ opened.library = built.2.library ∧
    (∀ other, opened.snapshot? other =
      if other = uri then some ⟨ws.nextSnapshot, built.1⟩ else ws.snapshot? other) ∧
    (∀ other, opened.diagnostics.get? other =
      if other = uri then some built.1.diagnostics else ws.diagnostics.get? other) ∧
    opened.nextSnapshot = ws.nextSnapshot + 1 := by
  intro opened built
  obtain ⟨batch, cancelled, nextToken, restarted⟩ :=
    (ws.replace disk (.ofText uri text)).restartBatch_eq
  have result : opened =
      { ws.replace disk (.ofText uri text) with batch, cancelled, nextToken } := restarted
  have replaced := ws.replace_eq disk uri text (parseTemplate text).tree (parseTemplate text).errors
  rw [result, show ws.replace disk (.ofText uri text) = _ from replaced]
  exact ⟨rfl, rfl, fun other => FileMap.get?_insert .., fun other => FileMap.get?_insert .., rfl⟩

/-- Each template is open once, and its snapshot has a number that was given before. -/
structure SnapshotsNumbered (ws : Workspace) : Prop where
  unique : ws.files.Unique
  below : ∀ uri snapshot, ws.snapshot? uri = some snapshot → snapshot.identity < ws.nextSnapshot

namespace SnapshotsNumbered

variable {ws after : Workspace} {disk : Disk}

theorem step (taken : Step disk ws after) (numbered : ws.SnapshotsNumbered) : after.SnapshotsNumbered := by
  cases taken with
  | lookup fqcn => exact ⟨numbered.unique, numbered.below⟩
  | configure config => exact ⟨numbered.unique, numbered.below⟩
  | schedule batch cancelled nextToken => exact ⟨numbered.unique, numbered.below⟩
  | diagnose uri =>
    rw [diagnose_eq]
    exact ⟨numbered.unique, numbered.below⟩
  | close uri =>
    refine ⟨numbered.unique.erase uri, fun other snapshot tracked => ?_⟩
    change (ws.files.erase uri).get? other = some snapshot at tracked
    rw [FileMap.get?_erase] at tracked
    split at tracked
    · cases tracked
    · exact numbered.below other snapshot tracked
  | replace uri text tree errors =>
    rw [replace_eq]
    refine ⟨numbered.unique.insert uri _, fun other snapshot tracked => ?_⟩
    change (ws.files.insert uri _).get? other = some snapshot at tracked
    rw [FileMap.get?_insert] at tracked
    split at tracked
    · obtain rfl := Option.some.inj tracked
      exact Nat.lt_succ_self ws.nextSnapshot
    · exact Nat.lt_succ_of_lt (numbered.below other snapshot tracked)

theorem forget (numbered : ws.SnapshotsNumbered) (disk : Disk) (uri : FileUri) :
    (ws.forget disk uri).SnapshotsNumbered :=
  (ws.steps_forget disk uri).preserves (fun _ _ taken => step taken)
    ⟨numbered.unique, numbered.below⟩

end SnapshotsNumbered

theorem Reachable.snapshotsNumbered {settings : WorkspaceSettings} {config : Configuration} {ws : Workspace}
    (reachable : Reachable settings config ws) : ws.SnapshotsNumbered :=
  reachable.invariant ⟨List.nodup_nil, fun _ _ tracked => nomatch tracked⟩
    (fun _ _ _ taken numbered => numbered.step taken) fun disk _ uri numbered => numbered.forget disk uri

end Workspace

end FusionAtlas
