import FusionAtlas.Proofs.FileMap
import FusionAtlas.Proofs.WorkspaceRun

/-!
The diagnostics a workspace keeps are those of the templates it has, in every state. A batch may be
outdated or cancelled, but what it writes was there before. Main statement:
`Workspace.diagnostics_match_snapshots`.
-/

set_option autoImplicit false
set_option relaxedAutoImplicit false

namespace FusionAtlas

namespace Workspace

/-- For each open template its diagnostics are kept, and for no other file. -/
def Diagnosed (ws : Workspace) : Prop :=
  ∀ uri, ws.diagnostics.get? uri = (ws.snapshot? uri).map fun snapshot => snapshot.file.diagnostics

namespace Diagnosed

variable {ws : Workspace}

theorem install (diagnosed : ws.Diagnosed) (file : TemplateFile) : (ws.install file).2.Diagnosed := by
  intro uri
  simp only [Workspace.install, snapshot?, FileMap.get?_insert]
  split
  · rfl
  · exact diagnosed uri

theorem close (diagnosed : ws.Diagnosed) (uri : FileUri) : (ws.close uri).Diagnosed := by
  intro other
  simp only [Workspace.close, snapshot?, FileMap.get?_erase]
  split
  · rfl
  · exact diagnosed other

theorem diagnose (diagnosed : ws.Diagnosed) (uri : FileUri) : (ws.diagnose uri).Diagnosed := by
  unfold Workspace.diagnose
  cases tracked : ws.snapshot? uri with
  | none => exact diagnosed
  | some snapshot =>
    intro other
    simp only [FileMap.get?_insert]
    split
    · rename_i same
      subst same
      change _ = (ws.snapshot? other).map _
      rw [tracked, Option.map_some]
    · exact diagnosed other

theorem step {disk : Disk} {after : Workspace} (taken : Step disk ws after)
    (diagnosed : ws.Diagnosed) : after.Diagnosed := by
  cases taken with
  | lookup fqcn => exact diagnosed
  | replace uri text tree errors =>
    have resolved : (ws.resolveFile disk (.ofTree uri text tree errors)).2.Diagnosed := diagnosed
    exact resolved.install _
  | close uri => exact diagnosed.close uri
  | diagnose uri => exact diagnosed.diagnose uri
  | configure config => exact diagnosed
  | schedule batch cancelled nextToken => exact diagnosed

theorem forget (diagnosed : ws.Diagnosed) (disk : Disk) (uri : FileUri) :
    (ws.forget disk uri).Diagnosed :=
  (ws.steps_forget disk uri).preserves (fun _ _ taken => step taken) diagnosed

end Diagnosed

theorem files_runPending (ws : Workspace) (token : Nat) (interrupt : Option Nat) (diagnosed : Nat)
    (pending : List FileUri) :
    (ws.runPending token interrupt diagnosed pending).2.files = ws.files := by
  induction pending generalizing ws diagnosed with
  | nil => rfl
  | cons uri pending ih =>
    unfold runPending
    simp only
    split
    · split
      · rfl
      · rfl
    · rw [ih, files_diagnose]

theorem files_runBatch (ws : Workspace) (interrupt : Option Nat) :
    (ws.runBatch interrupt).2.files = ws.files := by
  unfold runBatch
  split
  · exact files_runPending _ _ _ _ _
  · rfl

variable {settings : WorkspaceSettings} {config : Configuration} {ws : Workspace}

theorem Reachable.diagnosed (reachable : Reachable settings config ws) : ws.Diagnosed :=
  reachable.invariant (fun _ => rfl) (fun _ _ _ taken diagnosed => diagnosed.step taken)
    (fun disk _ uri diagnosed => diagnosed.forget disk uri)

/-- In every state the diagnostics kept for an open template are those of its current snapshot, and
none are kept for a file that is not open. Running the scheduled batch, to its end or not, leaves what
is kept as it is. -/
theorem diagnostics_match_snapshots (reachable : Reachable settings config ws) (uri : FileUri) :
    (∀ snapshot, ws.snapshot? uri = some snapshot →
      ws.diagnostics.get? uri = some snapshot.file.diagnostics ∧
        ws.diagnosticsOf uri = snapshot.file.diagnostics) ∧
    (ws.snapshot? uri = none → ws.diagnostics.get? uri = none ∧ ws.diagnosticsOf uri = []) ∧
    ∀ interrupt, (ws.runBatch interrupt).2.diagnostics.get? uri = ws.diagnostics.get? uri := by
  have kept := reachable.diagnosed uri
  refine ⟨?_, ?_, ?_⟩
  · intro snapshot tracked
    rw [tracked, Option.map_some] at kept
    exact ⟨kept, by rw [diagnosticsOf, kept, Option.getD_some]⟩
  · intro untracked
    rw [untracked, Option.map_none] at kept
    exact ⟨kept, by rw [diagnosticsOf, kept, Option.getD_none]⟩
  · intro interrupt
    have ran : Reachable settings config (ws.runBatch interrupt).2 :=
      reachable.perform .empty (.runBatch interrupt)
    rw [ran.diagnosed, kept, snapshot?, snapshot?, files_runBatch]

private def brokenTemplate : FileUri := ⟨"file:///Root.fusion"⟩

/-- A template that breaks off is opened, and all templates are scheduled. -/
private def brokenRun : Workspace :=
  ((make .standard .empty).perform .empty (.openText brokenTemplate "a =")).perform .empty .schedule

/-- The one diagnostic of a template that breaks off is kept, also when its batch is run. -/
theorem diagnostics_of_broken_template :
    Reachable .standard .empty brokenRun ∧
      ∃ snapshot, brokenRun.snapshot? brokenTemplate = some snapshot ∧
        snapshot.file.diagnostics.length = 1 ∧
        brokenRun.diagnosticsOf brokenTemplate = snapshot.file.diagnostics ∧
        (brokenRun.runBatch none).2.diagnostics.get? brokenTemplate =
          some snapshot.file.diagnostics := by
  have reachable : Reachable .standard .empty brokenRun :=
    (Reachable.fresh.perform .empty (.openText brokenTemplate "a =")).perform .empty .schedule
  have opened : (brokenRun.snapshot? brokenTemplate).isSome = true := by decide +kernel
  have counted : (brokenRun.diagnosticsOf brokenTemplate).length = 1 := by decide +kernel
  obtain ⟨snapshot, tracked⟩ := Option.isSome_iff_exists.mp opened
  obtain ⟨current, -, batch⟩ := diagnostics_match_snapshots reachable brokenTemplate
  obtain ⟨kept, shown⟩ := current snapshot tracked
  exact ⟨reachable, snapshot, tracked, shown ▸ counted, shown, (batch none).trans kept⟩

end Workspace

end FusionAtlas
