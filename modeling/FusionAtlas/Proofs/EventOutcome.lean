import FusionAtlas.Proofs.ClassIdentity
import FusionAtlas.Proofs.Snapshots
import FusionAtlas.Proofs.StoredDiagnostics

/-!
What the outcome of an event tells. An event is handled in one of four ways, and each accounts for all that
it did to the open templates; one that tells nothing did nothing. Main statements: `Workspace.handled` for
the ways, `Workspace.Rebuilds.accounts` for the templates, and `Workspace.handleEvent_accounts`.
-/

set_option autoImplicit false
set_option relaxedAutoImplicit false

namespace FusionAtlas

namespace Workspace

variable {ws after : Workspace} {disk : Disk} {event : FileEvent} {uris : List FileUri}

/-- The given templates were built anew, and no other open template changed. -/
structure Rebuilds (ws after : Workspace) (uris : List FileUri) : Prop where
  next : ws.nextSnapshot ≤ after.nextSnapshot
  renewed : ∀ uri ∈ uris, ∃ snapshot, after.snapshot? uri = some snapshot ∧
    ws.nextSnapshot ≤ snapshot.identity
  kept : ∀ uri ∉ uris, after.snapshot? uri = ws.snapshot? uri

namespace Rebuilds

theorem none (files : after.files = ws.files) (next : after.nextSnapshot = ws.nextSnapshot) :
    Rebuilds ws after [] :=
  ⟨next ▸ Nat.le_refl _, fun _ member => (nomatch member), fun uri _ => by rw [snapshot?, snapshot?, files]⟩

/-- One more template gets the next snapshot. -/
theorem insert {later : Workspace} {snapshot : Snapshot} {uri : FileUri} (rebuilds : Rebuilds ws after uris)
    (identity : snapshot.identity = after.nextSnapshot)
    (files : ∀ other, later.snapshot? other = if other = uri then some snapshot else after.snapshot? other)
    (next : later.nextSnapshot = after.nextSnapshot + 1) : Rebuilds ws later (uris ++ [uri]) := by
  refine ⟨next ▸ Nat.le_succ_of_le rebuilds.next, fun other member => ?_, fun other absent => ?_⟩
  · rw [files]
    split
    · exact ⟨snapshot, rfl, identity ▸ rebuilds.next⟩
    · rename_i different
      have earlier : other ∈ uris := (List.mem_append.mp member).resolve_right fun last =>
        different (List.mem_singleton.mp last)
      exact rebuilds.renewed other earlier
  · rw [List.mem_append, not_or, List.mem_singleton] at absent
    rw [files, if_neg absent.2, rebuilds.kept other absent.1]

end Rebuilds

/-- The template has a snapshot that no template had before. -/
def Renewed (ws after : Workspace) (uri : FileUri) : Prop :=
  ∃ snapshot, after.snapshot? uri = some snapshot ∧
    ∀ other old, ws.snapshot? other = some old → old.identity ≠ snapshot.identity

/-- Exactly the given templates have new snapshots, exactly the given ones are no longer open, and all others
have the snapshots they had. -/
structure Accounts (ws after : Workspace) (rebuilt removed : List FileUri) : Prop where
  nodup : rebuilt.Nodup ∧ removed.Nodup
  renewed : ∀ uri, uri ∈ rebuilt ↔ ws.Renewed after uri
  dropped : ∀ uri, uri ∈ removed ↔ (ws.snapshot? uri).isSome = true ∧ after.snapshot? uri = none
  kept : ∀ uri, uri ∉ rebuilt → uri ∉ removed → after.snapshot? uri = ws.snapshot? uri

/-- A template with the snapshot it had is not renewed. -/
theorem not_renewed {uri : FileUri} (same : after.snapshot? uri = ws.snapshot? uri) :
    ¬ws.Renewed after uri := by
  rintro ⟨snapshot, tracked, fresh⟩
  exact fresh uri snapshot (same ▸ tracked) rfl

theorem Rebuilds.accounts (rebuilds : Rebuilds ws after uris) (numbered : ws.SnapshotsNumbered)
    (nodup : uris.Nodup) : ws.Accounts after uris [] := by
  refine ⟨⟨nodup, .nil⟩, fun uri => ⟨fun member => ?_, fun renewed => ?_⟩, fun uri => ?_,
    fun uri absent _ => rebuilds.kept uri absent⟩
  · obtain ⟨snapshot, tracked, new⟩ := rebuilds.renewed uri member
    refine ⟨snapshot, tracked, fun other old before same => ?_⟩
    have below := numbered.below other old before
    omega
  · by_contra absent
    exact not_renewed (rebuilds.kept uri absent) renewed
  · refine ⟨fun member => (nomatch member), fun ⟨tracked, gone⟩ => ?_⟩
    by_cases member : uri ∈ uris
    · obtain ⟨snapshot, still, -⟩ := rebuilds.renewed uri member
      rw [still] at gone
      cases gone
    · rw [← rebuilds.kept uri member, gone] at tracked
      cases tracked

theorem accounts_close {uri : FileUri} (tracked : (ws.snapshot? uri).isSome = true) :
    ws.Accounts (ws.close uri) [] [uri] := by
  have files (other : FileUri) :
      (ws.close uri).snapshot? other = if other = uri then none else ws.snapshot? other :=
    FileMap.get?_erase ..
  refine ⟨⟨.nil, List.nodup_singleton uri⟩, fun other => ⟨fun member => (nomatch member), ?_⟩,
    fun other => ?_, fun other _ different => ?_⟩
  · intro renewed
    by_cases same : other = uri
    · obtain ⟨snapshot, still, -⟩ := renewed
      rw [files, if_pos same] at still
      cases still
    · exact absurd renewed (not_renewed (by rw [files, if_neg same]))
  · rw [List.mem_singleton, files]
    constructor
    · rintro rfl
      exact ⟨tracked, if_pos rfl⟩
    · rintro ⟨before, gone⟩
      by_contra different
      rw [if_neg different] at gone
      rw [gone] at before
      cases before
  · rw [files, if_neg (fun same => different (List.mem_singleton.mpr same))]

theorem reresolve_spec (disk : Disk) {uri : FileUri} {old : Snapshot} (tracked : ws.snapshot? uri = some old) :
    let snapshot : Snapshot := ⟨ws.nextSnapshot, (ws.build disk uri old.file.text).1⟩
    let after := (ws.reresolve disk uri).2
    (ws.reresolve disk uri).1 = some snapshot ∧
      (∀ other, after.snapshot? other = if other = uri then some snapshot else ws.snapshot? other) ∧
      after.nextSnapshot = ws.nextSnapshot + 1 := by
  intro snapshot after
  let text := old.file.text
  have replaced : after = ws.replace disk (.ofText uri text) := by
    change (ws.reresolve disk uri).2 = _
    rw [reresolve_eq, tracked]
  rw [replaced, show ws.replace disk (.ofText uri text) = _ from ws.replace_eq disk uri text _ _]
  refine ⟨?_, fun other => FileMap.get?_insert .., rfl⟩
  rw [reresolve, tracked]
  rfl

/-- Open templates that are built anew one after the other are all told. -/
theorem reresolveAll_spec (ws : Workspace) (disk : Disk)
    (tracked : ∀ uri ∈ uris, (ws.snapshot? uri).isSome = true) :
    (ws.reresolveAll disk uris).1 = uris ∧ Rebuilds ws (ws.reresolveAll disk uris).2 uris := by
  induction uris using List.reverseRecOn with
  | nil => exact ⟨rfl, .none rfl rfl⟩
  | append_singleton uris uri ih =>
    obtain ⟨told, rebuilds⟩ := ih fun other member => tracked other (List.mem_append_left _ member)
    let before := (ws.reresolveAll disk uris).2
    -- What is built anew before it may be the template itself, but does not close it.
    obtain ⟨old, still⟩ : ∃ old, before.snapshot? uri = some old := by
      by_cases earlier : uri ∈ uris
      · obtain ⟨snapshot, renewed, -⟩ := rebuilds.renewed uri earlier
        exact ⟨snapshot, renewed⟩
      · rw [rebuilds.kept uri earlier]
        exact Option.isSome_iff_exists.mp (tracked uri (by simp))
    obtain ⟨answer, files, next⟩ := reresolve_spec disk still
    have last : ws.reresolveAll disk (uris ++ [uri]) = (uris ++ [uri], (before.reresolve disk uri).2) := by
      have result : before.reresolve disk uri = (some _, (before.reresolve disk uri).2) :=
        Prod.ext answer rfl
      have step : ws.reresolveAll disk (uris ++ [uri]) =
          reresolveNext disk (ws.reresolveAll disk uris) uri := List.foldl_concat ..
      rw [step, reresolveNext, result, told]
    rw [last]
    exact ⟨rfl, rebuilds.insert rfl files next⟩

/-- The ways to handle an event. -/
inductive Handled (ws : Workspace) (disk : Disk) (event : FileEvent) :
    EventOutcome → Workspace → Prop where
  /-- Nothing is done. No class was loaded from a class file that changed or was deleted. -/
  | ignored
      (unloaded : event.uri.hasExtension ws.settings.hostExtension = true → event.change ≠ .created →
        (ws.library.loadedFrom event.uri).isEmpty = true) :
      Handled ws disk event .nothing ws
  /-- The classes of a file are forgotten. -/
  | purged (extension : event.uri.hasExtension ws.settings.hostExtension = true)
      (change : event.change ≠ .created)
      (loaded : (ws.library.loadedFrom event.uri).isEmpty = false) :
      Handled ws disk event
        ⟨true, ws.rebuilt disk event.uri, [], (ws.forget disk event.uri).files.uris.length⟩
        (ws.forget disk event.uri).scheduleAll
  /-- A template is opened, or built anew, from its file. -/
  | opened (extension : event.uri.hasExtension ws.settings.hostExtension = false)
      (template : event.uri.hasExtension ws.settings.templateExtension = true)
      {path : FilePath} {text : String} (named : event.uri.toPath? = some path)
      (read : disk.readText path = .ok text)
      (change : event.change = .created ∨
        event.change = .changed ∧ (ws.snapshot? event.uri).isSome = true) :
      Handled ws disk event ⟨false, [event.uri], [], 0⟩ (ws.openText disk event.uri text).2
  /-- An open template is closed. -/
  | closed (extension : event.uri.hasExtension ws.settings.hostExtension = false)
      (template : event.uri.hasExtension ws.settings.templateExtension = true)
      (change : event.change = .deleted) (tracked : (ws.snapshot? event.uri).isSome = true) :
      Handled ws disk event ⟨false, [], [event.uri], 0⟩ (ws.close event.uri)

/-- Closing a template that is not open changes nothing. -/
theorem close_eq_self (diagnosed : ws.Diagnosed) {uri : FileUri} (untracked : ws.snapshot? uri = none) :
    ws.close uri = ws := by
  have none : ws.diagnostics.get? uri = none := by rw [diagnosed uri, untracked, Option.map_none]
  rw [close, FileMap.erase_eq_self _ _ untracked, FileMap.erase_eq_self _ _ none]

theorem handled_openFromDisk (extension : event.uri.hasExtension ws.settings.hostExtension = false)
    (template : event.uri.hasExtension ws.settings.templateExtension = true)
    (change : event.change = .created ∨
      event.change = .changed ∧ (ws.snapshot? event.uri).isSome = true) :
    Handled ws disk event (ws.openFromDisk disk event.uri).1 (ws.openFromDisk disk event.uri).2 := by
  have ignored : Handled ws disk event .nothing ws :=
    .ignored fun host => absurd host (by rw [extension]; decide)
  unfold openFromDisk
  split
  · rename_i text found
    obtain ⟨path, named, read⟩ := Option.map_eq_some_iff.mp found
    exact .opened extension template named read change
  · exact ignored

theorem handled (diagnosed : ws.Diagnosed) (disk : Disk) (event : FileEvent) :
    Handled ws disk event (ws.handleEvent disk event).1 (ws.handleEvent disk event).2 := by
  unfold handleEvent
  split
  · rename_i host
    rw [handleHostEvent_eq]
    split
    · rename_i reason
      exact .ignored fun _ change => reason.resolve_left change
    · rename_i reason
      rw [not_or, Bool.not_eq_true] at reason
      exact .purged host reason.1 reason.2
  · rename_i host
    rw [Bool.not_eq_true] at host
    have ignored : Handled ws disk event .nothing ws :=
      .ignored fun host' => absurd host' (by rw [host]; decide)
    split
    · rename_i template
      unfold handleTemplateEvent
      split
      · rename_i change
        split
        · rename_i tracked
          exact .closed host template change tracked
        · rename_i untracked
          have none : ws.snapshot? event.uri = none :=
            Option.not_isSome_iff_eq_none.mp untracked
          rw [close_eq_self diagnosed none]
          exact ignored
      · rename_i change
        split
        · rename_i tracked
          exact handled_openFromDisk host template (Or.inr ⟨change, tracked⟩)
        · exact ignored
      · rename_i change
        exact handled_openFromDisk host template (Or.inl change)
    · exact ignored

theorem mem_dependents {uri template : FileUri} : template ∈ ws.dependents uri ↔
    ∃ snapshot, ws.snapshot? template = some snapshot ∧ snapshot.file.refersTo uri = true := by
  rw [dependents, List.mem_filter, FileMap.mem_uris]
  change (ws.snapshot? template).isSome = true ∧ _ ↔ _
  cases ws.snapshot? template <;> simp

/-- When the classes of a file are forgotten, the templates that this affects are built anew. -/
theorem forget_spec (ws : Workspace) (disk : Disk) (uri : FileUri) :
    ws.rebuilt disk uri = ws.affected uri ∧ Rebuilds ws (ws.forget disk uri) (ws.affected uri) := by
  have tracked : ∀ template ∈ ws.affected uri, ((ws.purged uri).snapshot? template).isSome = true := by
    intro template member
    unfold affected at member
    split at member
    · obtain ⟨snapshot, tracked, -⟩ := mem_dependents.mp member
      exact Option.isSome_iff_exists.mpr ⟨snapshot, tracked⟩
    · cases member
  obtain ⟨told, rebuilds⟩ := (ws.purged uri).reresolveAll_spec disk tracked
  exact ⟨told, rebuilds.next, rebuilds.renewed, rebuilds.kept⟩

theorem nodup_affected (numbered : ws.SnapshotsNumbered) (uri : FileUri) : (ws.affected uri).Nodup := by
  unfold affected
  split
  · exact numbered.unique.nodup_uris.filter _
  · exact .nil

theorem scheduleAll_eq (ws : Workspace) : ∃ cancelled, ws.scheduleAll =
    { ws with
      batch := some ⟨ws.files.uris, ws.nextToken⟩, cancelled, nextToken := ws.nextToken + 1 } :=
  ws.replaceBatch_eq ws.files.uris

namespace Handled

variable {outcome : EventOutcome}

theorem purged_iff (way : Handled ws disk event outcome after) :
    outcome.purged = true ↔
      event.uri.hasExtension ws.settings.hostExtension = true ∧ event.change ≠ .created ∧
        ∃ cls, ws.library.Holds cls ∧ cls.declaration.uri = event.uri := by
  rw [← ClassLibrary.loadedFrom_ne_nil_iff]
  cases way with
  | ignored unloaded =>
    refine ⟨fun purged => (nomatch purged), fun ⟨host, change, loaded⟩ => ?_⟩
    rw [unloaded host change] at loaded
    cases loaded
  | purged extension change loaded => exact ⟨fun _ => ⟨extension, change, loaded⟩, fun _ => rfl⟩
  | opened extension | closed extension =>
    refine ⟨fun purged => (nomatch purged), fun ⟨host, _⟩ => ?_⟩
    rw [extension] at host
    cases host

/-- The outcome accounts for all open templates. -/
theorem accounts (way : Handled ws disk event outcome after) (numbered : ws.SnapshotsNumbered) :
    ws.Accounts after outcome.rebuilt outcome.removed := by
  cases way with
  | ignored => exact (Rebuilds.none rfl rfl).accounts numbered .nil
  | purged =>
    obtain ⟨told, rebuilds⟩ := ws.forget_spec disk event.uri
    obtain ⟨cancelled, scheduled⟩ := (ws.forget disk event.uri).scheduleAll_eq
    have behind : Rebuilds ws (ws.forget disk event.uri).scheduleAll (ws.affected event.uri) := by
      rw [scheduled]
      exact ⟨rebuilds.next, rebuilds.renewed, rebuilds.kept⟩
    simp only [told]
    exact behind.accounts numbered (nodup_affected numbered event.uri)
  | @opened _ _ path text =>
    obtain ⟨-, -, files, -, next⟩ := ws.openText_spec disk event.uri text
    have one : Rebuilds ws (ws.openText disk event.uri text).2 ([] ++ [event.uri]) :=
      (Rebuilds.none rfl rfl).insert rfl files next
    exact one.accounts numbered (List.nodup_singleton _)
  | closed _ _ _ tracked => exact accounts_close tracked

/-- Templates are only diagnosed anew when class files change, or those that refer to the file are built
anew. -/
theorem policy (way : Handled ws disk event outcome after)
    (host : event.uri.hasExtension ws.settings.hostExtension = true) :
    (ws.settings.policy = .rediagnose →
      outcome.rebuilt = [] ∧ outcome.removed = [] ∧ after.files = ws.files) ∧
    (ws.settings.policy = .reresolve → outcome.purged = true →
      outcome.rebuilt = ws.dependents event.uri) := by
  cases way with
  | ignored => exact ⟨fun _ => ⟨rfl, rfl, rfl⟩, fun _ purged => (nomatch purged)⟩
  | opened extension | closed extension =>
    rw [extension] at host
    cases host
  | purged =>
    obtain ⟨told, -⟩ := ws.forget_spec disk event.uri
    constructor
    · intro rediagnose
      have none : ws.affected event.uri = [] := by rw [affected, rediagnose]
      have files : (ws.forget disk event.uri).files = ws.files := by rw [forget, none]; rfl
      obtain ⟨cancelled, scheduled⟩ := (ws.forget disk event.uri).scheduleAll_eq
      refine ⟨told.trans none, rfl, ?_⟩
      rw [scheduled]
      exact files
    · intro reresolve _
      rw [show ws.dependents event.uri = ws.affected event.uri by rw [affected, reresolve]]
      exact told

/-- All open templates are scheduled if classes were forgotten. -/
theorem scheduled (way : Handled ws disk event outcome after) :
    (outcome.purged = true → ∃ token, after.batch = some ⟨after.files.uris, token⟩ ∧
      outcome.scheduled = after.files.uris.length) ∧
    (outcome.purged = false → outcome.scheduled = 0) := by
  cases way with
  | ignored | opened | closed => exact ⟨fun purged => (nomatch purged), fun _ => rfl⟩
  | purged =>
    obtain ⟨cancelled, scheduled⟩ := (ws.forget disk event.uri).scheduleAll_eq
    refine ⟨fun _ => ?_, fun unpurged => (nomatch unpurged)⟩
    rw [scheduled]
    exact ⟨_, rfl, rfl⟩

/-- What tells nothing did nothing. -/
theorem eq_self (way : Handled ws disk event outcome after) (nothing : outcome = .nothing) :
    after = ws := by
  cases way with
  | ignored => rfl
  | purged | opened | closed => cases nothing

/-- Nothing is told of files with another extension, of templates that cannot be read, and of changes of
templates that are not open. -/
theorem eq_nothing (way : Handled ws disk event outcome after)
    (host : event.uri.hasExtension ws.settings.hostExtension = false)
    (reason : event.uri.hasExtension ws.settings.templateExtension = false ∨
      event.change ≠ .deleted ∧
        (∀ path text, event.uri.toPath? = some path → disk.readText path ≠ .ok text) ∨
      event.change ≠ .created ∧ ws.snapshot? event.uri = none) :
    outcome = .nothing := by
  cases way with
  | ignored => rfl
  | purged extension =>
    rw [extension] at host
    cases host
  | opened _ template named read change =>
    rcases reason with other | ⟨-, unreadable⟩ | ⟨old, untracked⟩
    · rw [template] at other
      cases other
    · exact absurd read (unreadable _ _ named)
    · obtain ⟨-, tracked⟩ := change.resolve_left old
      rw [untracked] at tracked
      cases tracked
  | closed _ template change tracked =>
    rcases reason with other | ⟨kept, -⟩ | ⟨-, untracked⟩
    · rw [template] at other
      cases other
    · exact absurd change kept
    · rw [untracked] at tracked
      cases tracked

end Handled

variable {settings : WorkspaceSettings} {config : Configuration}

/-- In every state the outcome of an event accounts for all that the event does. Classes are forgotten
exactly if a class file changed or was deleted and one was loaded from it; exactly the templates that are
told have new snapshots or are no longer open; by policy no template, or in order each that referred to the
class file, is built anew; if classes were forgotten, all open templates are scheduled in order, and else
none are told to be. An outcome that tells nothing leaves everything as it was, and comes of files with
another extension, of templates that cannot be read and of templates that are not open. -/
theorem handleEvent_accounts (reachable : Reachable settings config ws) (disk : Disk)
    (event : FileEvent) :
    let outcome := (ws.handleEvent disk event).1
    let after := (ws.handleEvent disk event).2
    let host := event.uri.hasExtension ws.settings.hostExtension
    (outcome.purged = true ↔ host = true ∧ event.change ≠ .created ∧
      ∃ cls, ws.library.Holds cls ∧ cls.declaration.uri = event.uri) ∧
    ws.Accounts after outcome.rebuilt outcome.removed ∧
    (host = true → ws.settings.policy = .rediagnose →
      ∀ uri, after.snapshot? uri = ws.snapshot? uri) ∧
    (host = true → ws.settings.policy = .reresolve → outcome.purged = true →
      outcome.rebuilt.Pairwise (fun a b => a.le b = true) ∧
      ∀ uri, uri ∈ outcome.rebuilt ↔ ∃ snapshot,
        ws.snapshot? uri = some snapshot ∧ snapshot.file.refersTo event.uri = true) ∧
    (outcome.purged = true → ∃ pending token, after.batch = some ⟨pending, token⟩ ∧
      pending.Pairwise (fun a b => a.le b = true) ∧ pending.Nodup ∧
      (∀ uri, uri ∈ pending ↔ (after.snapshot? uri).isSome = true) ∧
      outcome.scheduled = pending.length) ∧
    (outcome.purged = false → outcome.scheduled = 0) ∧
    (outcome = .nothing → after = ws) ∧
    (host = false →
      (event.uri.hasExtension ws.settings.templateExtension = false ∨
        event.change ≠ .deleted ∧
          (∀ path text, event.uri.toPath? = some path → disk.readText path ≠ .ok text) ∨
        event.change ≠ .created ∧ ws.snapshot? event.uri = none) →
      outcome = .nothing) := by
  intro outcome after host
  have way : Handled ws disk event outcome after := handled reachable.diagnosed disk event
  have numbered : after.SnapshotsNumbered := (reachable.perform disk (.event event)).snapshotsNumbered
  obtain ⟨batch, unscheduled⟩ := way.scheduled
  refine ⟨way.purged_iff, way.accounts reachable.snapshotsNumbered, fun extension policy uri => ?_,
    fun extension policy purged => ?_, fun purged => ?_, unscheduled, way.eq_self, way.eq_nothing⟩
  · rw [snapshot?, snapshot?, ((way.policy extension).1 policy).2.2]
  · rw [(way.policy extension).2 policy purged]
    exact ⟨(FileMap.pairwise_uris _).sublist List.filter_sublist, fun uri => mem_dependents⟩
  · obtain ⟨token, scheduled, count⟩ := batch purged
    exact ⟨after.files.uris, token, scheduled, FileMap.pairwise_uris _, numbered.unique.nodup_uris,
      FileMap.mem_uris _, count⟩

private def herdSettings : WorkspaceSettings :=
  { WorkspaceSettings.standard with roots := [("Acme", .ofString "/src")], policy := .reresolve }

private def herdDisk (text : String) : Disk :=
  ⟨.directory [(Text.Utf8.encode "src".toList, .directory
    [(Text.Utf8.encode "Cow.php".toList, .file (Text.Utf8.encode text.toList))])]⟩

private def herdBefore : Disk := herdDisk "<?php\nnamespace Acme;\nclass Cow {}\n"

private def cowTemplate : FileUri := ⟨"file:///Cow.fusion"⟩

private def plainTemplate : FileUri := ⟨"file:///Plain.fusion"⟩

/-- Two templates are open, and one of them names a class. -/
private def herd : Workspace :=
  ((make herdSettings .empty).perform herdBefore (.openText plainTemplate "a = 1\n")).perform herdBefore
    (.openText cowTemplate "@class = 'Acme\\\\Cow'\n")

private def herdEvent : FileEvent := ⟨.ofPath (.ofString "/src/Cow.php"), .deleted⟩

/-- When the file of the class is deleted, the template that names it is built anew, and the other is not. -/
theorem handleEvent_accounts_herd :
    let outcome := (herd.handleEvent .empty herdEvent).1
    let after := (herd.handleEvent .empty herdEvent).2
    Reachable herdSettings .empty herd ∧ outcome.purged = true ∧
      cowTemplate ∈ outcome.rebuilt ∧ herd.Renewed after cowTemplate ∧
      plainTemplate ∉ outcome.rebuilt ∧ ¬herd.Renewed after plainTemplate := by
  intro outcome after
  have reachable : Reachable herdSettings .empty herd :=
    (Reachable.fresh.perform herdBefore (.openText plainTemplate "a = 1\n")).perform herdBefore
      (.openText cowTemplate "@class = 'Acme\\\\Cow'\n")
  obtain ⟨purges, accounts, -, rebuilds, -⟩ := handleEvent_accounts reachable .empty herdEvent
  have host : herdEvent.uri.hasExtension herd.settings.hostExtension = true := by decide +kernel
  have loaded : (herd.library.loadedFrom herdEvent.uri).isEmpty = false := by decide +kernel
  have purged : outcome.purged = true :=
    purges.mpr ⟨host, by decide, ClassLibrary.loadedFrom_ne_nil_iff.mp loaded⟩
  obtain ⟨-, refers⟩ := rebuilds host rfl purged
  have named : (herd.snapshot? cowTemplate).map (·.file.refersTo herdEvent.uri) = some true := by
    decide +kernel
  have other : (herd.snapshot? plainTemplate).map (·.file.refersTo herdEvent.uri) = some false := by
    decide +kernel
  have rebuilt : cowTemplate ∈ outcome.rebuilt :=
    (refers cowTemplate).mpr (Option.map_eq_some_iff.mp named)
  have spared : plainTemplate ∉ outcome.rebuilt := by
    intro member
    obtain ⟨snapshot, tracked, refers⟩ := (refers plainTemplate).mp member
    rw [tracked, Option.map_some, refers] at other
    cases other
  exact ⟨reachable, purged, rebuilt, (accounts.renewed cowTemplate).mp rebuilt, spared,
    fun renewed => spared ((accounts.renewed plainTemplate).mpr renewed)⟩

end Workspace

end FusionAtlas
