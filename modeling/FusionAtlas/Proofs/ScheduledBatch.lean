import FusionAtlas.Proofs.EventOutcome

/-!
What operations do to the scheduled batch. Opening a file starts a scheduled batch over, the schedule and
the change of a class file replace it by one of all open templates, and nothing else touches it, apart from
running it. Main statements: `Workspace.batchSteps_perform` and `Workspace.perform_of_schedules`.
-/

set_option autoImplicit false
set_option relaxedAutoImplicit false

namespace FusionAtlas

namespace BatchOutcome

/-- Number of templates that were diagnosed. -/
def diagnosed : BatchOutcome → Nat
  | idle => 0
  | completed diagnosed => diagnosed
  | cancelled diagnosed _ => diagnosed

/-- Number of templates that were left out. -/
def remaining : BatchOutcome → Nat
  | cancelled _ remaining => remaining
  | _ => 0

end BatchOutcome

namespace Workspace

variable {ws after : Workspace} {disk : Disk}

theorem isCancelled_iff {token : Nat} : ws.isCancelled token = true ↔ token ∈ ws.cancelled :=
  List.contains_iff_mem

/-- The batch, the tokens that were cancelled and the next token are the same. -/
structure SameBatch (ws after : Workspace) : Prop where
  batch : after.batch = ws.batch
  cancelled : after.cancelled = ws.cancelled
  nextToken : after.nextToken = ws.nextToken

namespace SameBatch

theorem refl (ws : Workspace) : SameBatch ws ws := ⟨rfl, rfl, rfl⟩

theorem trans {later : Workspace} (first : SameBatch ws after) (second : SameBatch after later) :
    SameBatch ws later :=
  ⟨second.batch.trans first.batch, second.cancelled.trans first.cancelled,
    second.nextToken.trans first.nextToken⟩

end SameBatch

theorem sameBatch_replace (ws : Workspace) (disk : Disk) (file : TemplateFile) :
    SameBatch ws (ws.replace disk file) := ⟨rfl, rfl, rfl⟩

theorem sameBatch_diagnose (ws : Workspace) (uri : FileUri) : SameBatch ws (ws.diagnose uri) := by
  rw [diagnose_eq]
  exact ⟨rfl, rfl, rfl⟩

theorem sameBatch_reresolve (ws : Workspace) (disk : Disk) (uri : FileUri) :
    SameBatch ws (ws.reresolve disk uri).2 := by
  rw [reresolve_eq]
  split
  · exact ws.sameBatch_replace disk _
  · exact .refl ws

theorem sameBatch_forget (ws : Workspace) (disk : Disk) (uri : FileUri) :
    SameBatch ws (ws.forget disk uri) := by
  have each (uris : List FileUri) (ws : Workspace) : SameBatch ws (ws.reresolveAll disk uris).2 := by
    rw [reresolveAll_eq]
    induction uris generalizing ws with
    | nil => exact .refl ws
    | cons uri uris ih => exact (ws.sameBatch_reresolve disk uri).trans (ih _)
  have purged : SameBatch ws (ws.purged uri) := ⟨rfl, rfl, rfl⟩
  exact purged.trans (each _ _)

/-- A new batch takes the place of the one before, whose token is then cancelled. -/
theorem replaceBatch_spec (ws : Workspace) (pending : List FileUri) :
    (ws.replaceBatch pending).batch = some ⟨pending, ws.nextToken⟩ ∧
      (ws.replaceBatch pending).nextToken = ws.nextToken + 1 ∧
      (ws.replaceBatch pending).files = ws.files ∧
      ∀ token, token ∈ (ws.replaceBatch pending).cancelled ↔
        ws.batch.map Batch.token = some token ∨ token ∈ ws.cancelled := by
  cases scheduled : ws.batch with
  | none => simp [replaceBatch, scheduled]
  | some batch => simp [replaceBatch, scheduled, cancel, eq_comm]

theorem restartBatch_of_some {batch : Batch} (scheduled : ws.batch = some batch) :
    ws.restartBatch = ws.replaceBatch batch.pending := by
  rw [restartBatch, scheduled]

/-- Opening a file while a batch is scheduled makes it give way to one with the same templates. -/
theorem openFile_batch {batch : Batch} (scheduled : ws.batch = some batch) (disk : Disk)
    (file : TemplateFile) :
    (ws.openFile disk file).2.batch = some ⟨batch.pending, ws.nextToken⟩ ∧
      ∀ token, token ∈ (ws.openFile disk file).2.cancelled ↔ token = batch.token ∨ token ∈ ws.cancelled := by
  have same := ws.sameBatch_replace disk file
  have held : (ws.replace disk file).batch = some batch := same.batch.trans scheduled
  obtain ⟨replaced, -, -, cancelled⟩ := (ws.replace disk file).replaceBatch_spec batch.pending
  rw [openFile_eq, restartBatch_of_some held]
  refine ⟨by rw [replaced, same.nextToken], fun token => ?_⟩
  rw [cancelled token, held, same.cancelled, Option.map_some, Option.some.injEq, eq_comm]

theorem update_of_tracked {uri : FileUri} (tracked : (ws.snapshot? uri).isSome = true) (disk : Disk)
    (text : String) : (ws.update disk uri text).2 = (ws.openText disk uri text).2 := by
  have held : ws.files.contains uri = true := tracked
  rw [update, if_pos held]

/-- What may happen to the batch while no new one is scheduled. -/
inductive BatchStep (ws : Workspace) : Workspace → Prop where
  | same {after : Workspace} (same : SameBatch ws after) : BatchStep ws after
  | restart : BatchStep ws ws.restartBatch

abbrev BatchSteps : Workspace → Workspace → Prop := Relation.ReflTransGen BatchStep

theorem batchSteps_of_same (same : SameBatch ws after) : BatchSteps ws after := .single (.same same)

theorem batchSteps_openFile (ws : Workspace) (disk : Disk) (file : TemplateFile) :
    BatchSteps ws (ws.openFile disk file).2 := by
  rw [openFile_eq]
  exact (batchSteps_of_same (ws.sameBatch_replace disk file)).tail .restart

theorem batchSteps_update (ws : Workspace) (disk : Disk) (uri : FileUri) (text : String) :
    BatchSteps ws (ws.update disk uri text).2 := by
  unfold update
  split
  · exact ws.batchSteps_openFile disk _
  · exact .refl

theorem batchSteps_loadDirectory (ws : Workspace) (disk : Disk) (directory : FilePath) :
    BatchSteps ws (ws.perform disk (.loadDirectory directory)) := by
  have each (paths : List FilePath) (state : LoadReport × Workspace) :
      BatchSteps state.2 (paths.foldl (loadInto disk) state).2 := by
    induction paths generalizing state with
    | nil => exact .refl
    | cons path paths ih =>
      have one : BatchSteps state.2 (loadInto disk state path).2 := by
        unfold loadInto
        simp only
        split
        · exact state.2.batchSteps_openFile disk _
        · exact .refl
      exact one.trans (ih _)
  simp only [perform, loadDirectory_eq]
  cases disk.projectFiles directory [ws.settings.templateExtension] with
  | error fault => exact .refl
  | ok paths => exact each paths (⟨[], []⟩, ws)

theorem batchSteps_loadFile (ws : Workspace) (disk : Disk) (path : FilePath) :
    BatchSteps ws (ws.perform disk (.loadFile path)) := by
  simp only [perform, loadFile]
  cases disk.projectText path with
  | error fault => exact .refl
  | ok text => exact ws.batchSteps_openFile disk _

/-- The operation schedules all open templates: it is asked to, or the classes of a file are forgotten. -/
def Schedules (ws : Workspace) (disk : Disk) : Operation → Prop
  | .schedule => True
  | .event event => (ws.handleEvent disk event).1.purged = true
  | _ => False

instance (ws : Workspace) (disk : Disk) (operation : Operation) : Decidable (ws.Schedules disk operation) := by
  unfold Schedules
  split <;> infer_instance

end Workspace

/-- The operation runs the scheduled batch or cancels a token. -/
def Operation.endsBatch : Operation → Bool
  | .runBatch _ | .cancel _ => true
  | _ => false

namespace Workspace

variable {ws : Workspace} {disk : Disk} {operation : Operation}

/-- Whatever does not schedule templates, run the batch or cancel a token leaves the batch as it is or
starts it over. -/
theorem batchSteps_perform (diagnosed : ws.Diagnosed) (goesOn : operation.endsBatch = false)
    (unscheduled : ¬ws.Schedules disk operation) : BatchSteps ws (ws.perform disk operation) := by
  cases operation with
  | openText uri text => exact ws.batchSteps_openFile disk _
  | openParsed uri text tree errors => exact ws.batchSteps_openFile disk _
  | update uri text => exact ws.batchSteps_update disk uri text
  | reresolve uri => exact batchSteps_of_same (ws.sameBatch_reresolve disk uri)
  | close uri => exact batchSteps_of_same ⟨rfl, rfl, rfl⟩
  | setConfig config => exact batchSteps_of_same ⟨rfl, rfl, rfl⟩
  | lookup fqcn => exact batchSteps_of_same ⟨rfl, rfl, rfl⟩
  | schedule => exact absurd trivial unscheduled
  | cancel token => cases goesOn
  | runBatch interrupt => cases goesOn
  | loadDirectory directory => exact ws.batchSteps_loadDirectory disk directory
  | loadFile path => exact ws.batchSteps_loadFile disk path
  | event event =>
    have way := handled diagnosed disk event
    rw [Schedules] at unscheduled
    rw [perform]
    generalize ws.handleEvent disk event = result at way unscheduled ⊢
    obtain ⟨outcome, after⟩ := result
    cases way with
    | ignored => exact .refl
    | purged => exact absurd rfl unscheduled
    | opened => exact ws.batchSteps_openFile disk _
    | closed => exact batchSteps_of_same ⟨rfl, rfl, rfl⟩

/-- What schedules templates schedules those that are open then, each of them once. -/
theorem perform_of_schedules (numbered : ws.SnapshotsNumbered) (diagnosed : ws.Diagnosed)
    (schedules : ws.Schedules disk operation) :
    ∃ before, SameBatch ws before ∧ before.files.Unique ∧ ws.perform disk operation = before.scheduleAll := by
  cases operation with
  | schedule => exact ⟨ws, .refl ws, numbered.unique, rfl⟩
  | event event =>
    have way := handled diagnosed disk event
    rw [Schedules] at schedules
    rw [perform]
    generalize ws.handleEvent disk event = result at way schedules ⊢
    obtain ⟨outcome, after⟩ := result
    cases way with
    | ignored | opened | closed => cases schedules
    | purged =>
      have forgotten := numbered.forget disk event.uri
      exact ⟨ws.forget disk event.uri, ws.sameBatch_forget disk event.uri, forgotten.unique, rfl⟩
  | _ => cases schedules

/-- A run leaves no batch scheduled, and cancels no other token than that of the batch. -/
theorem runPending_spec (ws : Workspace) (token : Nat) (interrupt : Option Nat) (diagnosed : Nat)
    (pending : List FileUri) :
    let ran := ws.runPending token interrupt diagnosed pending
    ran.1 ≠ .idle ∧ ran.1.diagnosed + ran.1.remaining = diagnosed + pending.length ∧
      ran.2.batch = ws.batch ∧ ran.2.nextToken = ws.nextToken ∧ ws.cancelled ⊆ ran.2.cancelled ∧
      ∀ other ∈ ran.2.cancelled, other = token ∨ other ∈ ws.cancelled := by
  induction pending generalizing ws diagnosed with
  | nil => exact ⟨by simp [runPending], rfl, rfl, rfl, List.Subset.refl _, fun _ member => Or.inr member⟩
  | cons uri pending ih =>
    unfold runPending
    simp only
    split
    · split
      · exact ⟨by simp, rfl, rfl, rfl, List.subset_cons_self _ _, fun _ member => List.mem_cons.mp member⟩
      · exact ⟨by simp, rfl, rfl, rfl, List.Subset.refl _, fun _ member => Or.inr member⟩
    · have same := ws.sameBatch_diagnose uri
      obtain ⟨busy, counts, batch, next, kept, cancelled⟩ := ih (ws.diagnose uri) (diagnosed + 1)
      rw [same.cancelled] at kept cancelled
      refine ⟨busy, ?_, batch.trans same.batch, next.trans same.nextToken, kept, cancelled⟩
      rw [counts, List.length_cons]
      omega

theorem runBatch_spec (ws : Workspace) (interrupt : Option Nat) :
    let ran := ws.runBatch interrupt
    (ran.1 = .idle ↔ ws.batch = none) ∧
      (∀ batch, ws.batch = some batch → ran.1.diagnosed + ran.1.remaining = batch.pending.length) ∧
      ran.2.batch = none ∧ ran.2.nextToken = ws.nextToken ∧ ws.cancelled ⊆ ran.2.cancelled ∧
      ∀ token ∈ ran.2.cancelled, ws.batch.map Batch.token = some token ∨ token ∈ ws.cancelled := by
  cases scheduled : ws.batch with
  | none => simp [runBatch, scheduled]
  | some batch =>
    obtain ⟨busy, counts, none, next, kept, cancelled⟩ :=
      runPending_spec { ws with batch := none } batch.token interrupt 0 batch.pending
    rw [Nat.zero_add] at counts
    simp only [runBatch, scheduled]
    refine ⟨by simp [busy], fun other same => ?_, none, next, kept, fun token member => ?_⟩
    · rw [← Option.some.inj same]
      exact counts
    · rcases cancelled token member with rfl | before
      · exact Or.inl rfl
      · exact Or.inr before

end Workspace

end FusionAtlas
