import FusionAtlas.Proofs.LookupProgram
import FusionAtlas.Workspace.Event
import FusionAtlas.Workspace.Loading

/-!
Runs of a workspace, each operation on the disk of its moment. Whatever a workspace is asked for, it
does in small steps, and only the change of a class file makes it forget classes first. Main
statements: `Workspace.perform_cases` and, for what holds in every state, `Workspace.Reachable.invariant`.
-/

set_option autoImplicit false
set_option relaxedAutoImplicit false

namespace FusionAtlas

/-- What a workspace can be asked for. -/
inductive Operation where
  | openText (uri : FileUri) (text : String)
  | openParsed (uri : FileUri) (text : String) (tree : SyntaxTree)
      (errors : Array Template.SyntaxError)
  | update (uri : FileUri) (text : String)
  | reresolve (uri : FileUri)
  | close (uri : FileUri)
  | setConfig (config : Configuration)
  | lookup (fqcn : String)
  | event (event : FileEvent)
  | schedule
  | cancel (token : Nat)
  | runBatch (interrupt : Option Nat)
  | loadDirectory (directory : FilePath)
  | loadFile (path : FilePath)

namespace Workspace

/-- The workspace behind an operation. What could not be loaded leaves it as it was. -/
def perform (ws : Workspace) (disk : Disk) : Operation → Workspace
  | .openText uri text => (ws.openText disk uri text).2
  | .openParsed uri text tree errors => (ws.openParsed disk uri text tree errors).2
  | .update uri text => (ws.update disk uri text).2
  | .reresolve uri => (ws.reresolve disk uri).2
  | .close uri => ws.close uri
  | .setConfig config => ws.setConfig config
  | .lookup fqcn => (ws.lookup disk fqcn).2
  | .event event => (ws.handleEvent disk event).2
  | .schedule => ws.scheduleAll
  | .cancel token => ws.cancel token
  | .runBatch interrupt => (ws.runBatch interrupt).2
  | .loadDirectory directory =>
    ((ws.loadDirectory disk directory).toOption.map Prod.snd).getD ws
  | .loadFile path => ((ws.loadFile disk path).toOption.map Prod.snd).getD ws

/-- The workspaces that come of a fresh one by operations, with any change of the disk in between. -/
inductive Reachable (settings : WorkspaceSettings) (config : Configuration) : Workspace → Prop where
  | fresh : Reachable settings config (make settings config)
  | perform {ws : Workspace} (before : Reachable settings config ws) (disk : Disk)
      (operation : Operation) : Reachable settings config (ws.perform disk operation)

/-- Resolve a file and keep it as the current snapshot of its template. -/
def replace (ws : Workspace) (disk : Disk) (file : TemplateFile) : Workspace :=
  ((ws.resolveFile disk file).2.install (ws.resolveFile disk file).1).2

/-- What operations consist of. -/
inductive Step (disk : Disk) (ws : Workspace) : Workspace → Prop where
  | lookup (fqcn : String) : Step disk ws (ws.lookup disk fqcn).2
  | replace (uri : FileUri) (text : String) (tree : SyntaxTree)
      (errors : Array Template.SyntaxError) :
      Step disk ws (ws.replace disk (.ofTree uri text tree errors))
  | close (uri : FileUri) : Step disk ws (ws.close uri)
  | diagnose (uri : FileUri) : Step disk ws (ws.diagnose uri)
  | configure (config : Configuration) : Step disk ws (ws.setConfig config)
  | schedule (batch : Option Batch) (cancelled : List Nat) (nextToken : Nat) :
      Step disk ws { ws with batch, cancelled, nextToken }

/-- Any number of steps on one disk. -/
def Steps (disk : Disk) : Workspace → Workspace → Prop := Relation.ReflTransGen (Step disk)

namespace Steps

variable {disk : Disk} {a b : Workspace}

theorem refl (ws : Workspace) : Steps disk ws ws := Relation.ReflTransGen.refl

theorem single (step : Step disk a b) : Steps disk a b := Relation.ReflTransGen.single step

theorem trans {c : Workspace} (first : Steps disk a b) (second : Steps disk b c) : Steps disk a c :=
  Relation.ReflTransGen.trans first second

theorem preserves {P : Workspace → Prop} (steps : Steps disk a b)
    (keeps : ∀ ws after, Step disk ws after → P ws → P after) (start : P a) : P b := by
  induction steps with
  | refl => exact start
  | tail _ step ih => exact keeps _ _ step ih

theorem foldl {α : Type} {f : Workspace → α → Workspace} (item : ∀ ws x, Steps disk ws (f ws x))
    (items : List α) (ws : Workspace) : Steps disk ws (items.foldl f ws) := by
  induction items generalizing ws with
  | nil => exact refl ws
  | cons x items ih => exact (item ws x).trans (ih (f ws x))

end Steps

variable (ws : Workspace) (disk : Disk) (uri : FileUri)

theorem diagnose_eq :
    ws.diagnose uri = { ws with diagnostics := (ws.diagnose uri).diagnostics } := by
  unfold diagnose
  split
  · rfl
  · rfl

@[simp] theorem files_diagnose : (ws.diagnose uri).files = ws.files := by rw [diagnose_eq]

@[simp] theorem library_diagnose : (ws.diagnose uri).library = ws.library := by rw [diagnose_eq]

@[simp] theorem settings_diagnose : (ws.diagnose uri).settings = ws.settings := by rw [diagnose_eq]

theorem step_replaceBatch (pending : List FileUri) : Step disk ws (ws.replaceBatch pending) := by
  unfold replaceBatch
  split
  · exact .schedule _ _ _
  · exact .schedule _ _ _

theorem steps_restartBatch : Steps disk ws ws.restartBatch := by
  unfold restartBatch
  split
  · exact .single (ws.step_replaceBatch disk _)
  · exact .refl ws

theorem openFile_eq (file : TemplateFile) :
    (ws.openFile disk file).2 = (ws.replace disk file).restartBatch := rfl

theorem steps_openParsed (text : String) (tree : SyntaxTree)
    (errors : Array Template.SyntaxError) :
    Steps disk ws (ws.openParsed disk uri text tree errors).2 := by
  rw [openParsed, openFile_eq]
  exact (Steps.single (.replace uri text tree errors)).trans (steps_restartBatch _ disk)

theorem steps_openText (text : String) : Steps disk ws (ws.openText disk uri text).2 :=
  ws.steps_openParsed disk uri text _ _

theorem steps_update (text : String) : Steps disk ws (ws.update disk uri text).2 := by
  unfold update
  split
  · exact ws.steps_openText disk uri text
  · exact .refl ws

theorem reresolve_eq :
    (ws.reresolve disk uri).2 =
      match ws.snapshot? uri with
      | some old => ws.replace disk (.ofText uri old.file.text)
      | none => ws := by
  cases tracked : ws.snapshot? uri with
  | none => rw [reresolve, tracked]
  | some old =>
    rw [reresolve, tracked]
    rfl

theorem steps_reresolve : Steps disk ws (ws.reresolve disk uri).2 := by
  rw [reresolve_eq]
  split
  · exact .single (.replace uri _ _ _)
  · exact .refl ws

theorem steps_runPending (token : Nat) (interrupt : Option Nat) (diagnosed : Nat)
    (pending : List FileUri) :
    Steps disk ws (ws.runPending token interrupt diagnosed pending).2 := by
  induction pending generalizing ws diagnosed with
  | nil => exact .refl ws
  | cons uri pending ih =>
    unfold runPending
    simp only
    split
    · split
      · exact .single (.schedule _ _ _)
      · exact .refl ws
    · exact (Steps.single (.diagnose uri)).trans (ih (ws.diagnose uri) (diagnosed + 1))

theorem steps_runBatch (interrupt : Option Nat) : Steps disk ws (ws.runBatch interrupt).2 := by
  unfold runBatch
  split
  · exact (Steps.single (.schedule none _ _)).trans (steps_runPending _ disk _ _ _ _)
  · exact .refl ws

theorem steps_openFromDisk : Steps disk ws (ws.openFromDisk disk uri).2 := by
  unfold openFromDisk
  split
  · exact ws.steps_openText disk uri _
  · exact .refl ws

theorem steps_handleTemplateEvent (event : FileEvent) :
    Steps disk ws (ws.handleTemplateEvent disk event).2 := by
  unfold handleTemplateEvent
  split
  · split
    · exact .single (.close event.uri)
    · exact .single (.close event.uri)
  · split
    · exact ws.steps_openFromDisk disk event.uri
    · exact .refl ws
  · exact ws.steps_openFromDisk disk event.uri

/-- Read, parse and open the template at a path, and note it in the report. -/
def loadInto (disk : Disk) (state : LoadReport × Workspace) (path : FilePath) : LoadReport × Workspace :=
  let (report, ws) := state
  match disk.readText path with
  | .ok text =>
    let uri := FileUri.ofPath path
    (⟨report.loaded ++ [uri], report.failed⟩, (ws.openText disk uri text).2)
  | .error fault => (⟨report.loaded, report.failed ++ [(path, fault)]⟩, ws)

theorem run_openRead (report : LoadReport) (path : FilePath) :
    (openRead disk report (disk.readTemplate path)).run ws = loadInto disk (report, ws) path := by
  unfold loadInto Disk.readTemplate
  cases disk.readText path with
  | ok text => rfl
  | error fault => rfl

theorem run_foldlM_openRead (paths : List FilePath) (report : LoadReport) :
    ((paths.map disk.readTemplate).foldlM (fun report result => openRead disk report result) report :
        ExceptT LoadError (StateM Workspace) LoadReport).run.run ws =
      (.ok (paths.foldl (loadInto disk) (report, ws)).1, (paths.foldl (loadInto disk) (report, ws)).2) := by
  induction paths generalizing report ws with
  | nil => rfl
  | cons path paths ih =>
    rw [List.map_cons, List.foldlM_cons, List.foldl_cons, ← ws.run_openRead disk report path]
    exact ih _ _

/-- Opening templates that were all read before is reading and opening them one after the other. -/
theorem run_openDirectory (directory : FilePath) :
    (openDirectory disk directory).run.run ws =
      match disk.projectFiles directory [ws.settings.templateExtension] with
      | .error error => (.error error, ws)
      | .ok paths =>
        let (report, after) := paths.foldl (loadInto disk) (⟨[], []⟩, ws)
        (.ok report, after) := by
  have begun : (openDirectory disk directory).run.run ws =
      (do
        let paths ← ofExcept (disk.projectFiles directory [ws.settings.templateExtension])
        (paths.map disk.readTemplate).foldlM (fun report result => openRead disk report result) ⟨[], []⟩ :
          ExceptT LoadError (StateM Workspace) LoadReport).run.run ws := by
    unfold openDirectory
    rw [ExceptT.run_bind]
    rfl
  rw [begun]
  cases disk.projectFiles directory [ws.settings.templateExtension] with
  | error error => rfl
  | ok paths => exact ws.run_foldlM_openRead disk paths ⟨[], []⟩

theorem loadDirectory_eq (directory : FilePath) :
    ws.loadDirectory disk directory =
      (disk.projectFiles directory [ws.settings.templateExtension]).map fun paths =>
        paths.foldl (loadInto disk) (⟨[], []⟩, ws) := by
  rw [loadDirectory, run_openDirectory]
  cases disk.projectFiles directory [ws.settings.templateExtension] with
  | error error => rfl
  | ok paths => rfl

theorem steps_foldl_loadInto (paths : List FilePath) (report : LoadReport) :
    Steps disk ws (paths.foldl (loadInto disk) (report, ws)).2 := by
  induction paths generalizing ws report with
  | nil => exact .refl ws
  | cons path paths ih =>
    rw [List.foldl_cons, loadInto]
    simp only
    split
    · exact (ws.steps_openText disk _ _).trans (ih _ _)
    · exact ih ws _

theorem steps_loadDirectory (directory : FilePath) :
    Steps disk ws (ws.perform disk (.loadDirectory directory)) := by
  simp only [perform, loadDirectory_eq]
  cases disk.projectFiles directory [ws.settings.templateExtension] with
  | error fault => exact .refl ws
  | ok paths => exact ws.steps_foldl_loadInto disk paths _

theorem steps_loadFile (path : FilePath) :
    Steps disk ws (ws.perform disk (.loadFile path)) := by
  simp only [perform, loadFile]
  cases disk.projectText path with
  | error fault => exact .refl ws
  | ok text => exact ws.steps_openText disk _ text

/-- Settings never change. -/
theorem Step.settings {disk : Disk} {ws after : Workspace} (taken : Step disk ws after) :
    after.settings = ws.settings := by
  cases taken with
  | diagnose uri => exact ws.settings_diagnose uri
  | lookup | replace | close | configure | schedule => rfl

/-- The workspace with the classes of a file forgotten. -/
def purged (ws : Workspace) (uri : FileUri) : Workspace :=
  { ws with library := ws.library.purge uri }

/-- The templates built anew when the classes of a file are forgotten. -/
def affected (ws : Workspace) (uri : FileUri) : List FileUri :=
  match ws.settings.policy with
  | .reresolve => ws.dependents uri
  | .rediagnose => []

/-- Forget the classes of a file, and build the templates anew that this affects. -/
def forget (ws : Workspace) (disk : Disk) (uri : FileUri) : Workspace :=
  ((ws.purged uri).reresolveAll disk (ws.affected uri)).2

theorem snd_reresolveNext (state : List FileUri × Workspace) :
    (reresolveNext disk state uri).2 = (state.2.reresolve disk uri).2 := by
  unfold reresolveNext
  split
  · rename_i built
    rw [built]
  · rename_i built
    rw [built]

theorem reresolveAll_eq (uris : List FileUri) :
    (ws.reresolveAll disk uris).2 = uris.foldl (fun ws uri => (ws.reresolve disk uri).2) ws := by
  refine (List.foldl_hom Prod.snd fun state uri => ?_).symm
  exact (snd_reresolveNext disk uri state).symm

theorem steps_reresolveAll (uris : List FileUri) : Steps disk ws (ws.reresolveAll disk uris).2 := by
  rw [reresolveAll_eq]
  exact Steps.foldl (fun ws uri => ws.steps_reresolve disk uri) uris ws

theorem steps_forget : Steps disk (ws.purged uri) (ws.forget disk uri) :=
  (ws.purged uri).steps_reresolveAll disk _

theorem settings_forget : (ws.forget disk uri).settings = ws.settings := by
  have kept := (ws.steps_forget disk uri).preserves
    (P := fun after => after.settings = ws.settings) ?_ rfl
  · exact kept
  · exact fun _ _ taken same => taken.settings.trans same

/-- The templates told as built anew when the classes of a file are forgotten. -/
def rebuilt (ws : Workspace) (disk : Disk) (uri : FileUri) : List FileUri :=
  ((ws.purged uri).reresolveAll disk (ws.affected uri)).1

theorem handleHostEvent_eq (event : FileEvent) :
    ws.handleHostEvent disk event =
      if event.change = .created ∨ (ws.library.loadedFrom event.uri).isEmpty then (.nothing, ws)
      else
        (⟨true, ws.rebuilt disk event.uri, [], (ws.forget disk event.uri).files.uris.length⟩,
          (ws.forget disk event.uri).scheduleAll) := by
  simp only [handleHostEvent, ClassLibrary.purgeFile_eq, Bool.not_eq_true']
  by_cases created : event.change = .created
  · rw [if_pos created, if_pos (Or.inl created)]
  · rw [if_neg created]
    cases loaded : (ws.library.loadedFrom event.uri).isEmpty with
    | true =>
      rw [if_neg (by decide), if_pos (Or.inr rfl),
        ws.library.purge_eq_self _ (List.isEmpty_iff.mp loaded)]
    | false =>
      rw [if_pos rfl, if_neg (by simp [created])]
      rfl

/-- An operation is made of steps, or forgets the classes of a file and schedules all templates. -/
theorem perform_cases (operation : Operation) :
    Steps disk ws (ws.perform disk operation) ∨
      ∃ uri, ws.perform disk operation = (ws.forget disk uri).scheduleAll := by
  cases operation with
  | openText uri text => exact Or.inl (ws.steps_openText disk uri text)
  | openParsed uri text tree errors => exact Or.inl (ws.steps_openParsed disk uri text tree errors)
  | update uri text => exact Or.inl (ws.steps_update disk uri text)
  | reresolve uri => exact Or.inl (ws.steps_reresolve disk uri)
  | close uri => exact Or.inl (.single (.close uri))
  | setConfig config => exact Or.inl (.single (.configure config))
  | lookup fqcn => exact Or.inl (.single (.lookup fqcn))
  | schedule => exact Or.inl (.single (ws.step_replaceBatch disk _))
  | cancel token => exact Or.inl (.single (.schedule _ _ _))
  | runBatch interrupt => exact Or.inl (ws.steps_runBatch disk interrupt)
  | loadDirectory directory => exact Or.inl (ws.steps_loadDirectory disk directory)
  | loadFile path => exact Or.inl (ws.steps_loadFile disk path)
  | event event =>
    simp only [perform, handleEvent]
    split
    · rw [handleHostEvent_eq]
      split
      · exact Or.inl (.refl ws)
      · exact Or.inr ⟨event.uri, rfl⟩
    · split
      · exact Or.inl (ws.steps_handleTemplateEvent disk event)
      · exact Or.inl (.refl ws)

/-- What steps and forgetting keep, every operation keeps. -/
theorem perform_preserves {P : Workspace → Prop}
    (steps : ∀ disk ws after, Step disk ws after → P ws → P after)
    (forget : ∀ disk ws uri, P ws → P (ws.forget disk uri)) (operation : Operation) (start : P ws) :
    P (ws.perform disk operation) := by
  rcases ws.perform_cases disk operation with taken | ⟨uri, result⟩
  · exact taken.preserves (steps disk) start
  · rw [result]
    exact steps disk _ _ (step_replaceBatch _ disk _) (forget disk ws uri start)

/-- Any number of operations, each on the disk of its moment. -/
def Runs : Workspace → Workspace → Prop :=
  Relation.ReflTransGen fun before after => ∃ disk operation, after = before.perform disk operation

/-- What steps and forgetting keep is kept on every run. -/
theorem Runs.preserves {P : Workspace → Prop} {ws after : Workspace} (runs : Runs ws after)
    (steps : ∀ disk ws after, Step disk ws after → P ws → P after)
    (forget : ∀ disk ws uri, P ws → P (ws.forget disk uri)) (start : P ws) : P after := by
  induction runs with
  | refl => exact start
  | tail _ performed ih =>
    obtain ⟨disk, operation, rfl⟩ := performed
    exact perform_preserves _ disk steps forget operation ih

section

variable {settings : WorkspaceSettings} {config : Configuration} {ws : Workspace}

theorem Reachable.runs (reachable : Reachable settings config ws) :
    Runs (make settings config) ws := by
  induction reachable with
  | fresh => exact .refl
  | perform _ disk operation ih => exact ih.tail ⟨disk, operation, rfl⟩

/-- What a fresh workspace has, and steps and forgetting keep, holds in every state. -/
theorem Reachable.invariant {P : Workspace → Prop} (reachable : Reachable settings config ws)
    (fresh : P (make settings config))
    (steps : ∀ disk ws after, Step disk ws after → P ws → P after)
    (forget : ∀ disk ws uri, P ws → P (ws.forget disk uri)) : P ws :=
  reachable.runs.preserves steps forget fresh

end

end Workspace

end FusionAtlas
