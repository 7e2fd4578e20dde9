import FusionAtlas.Diagnostic
import FusionAtlas.Resolution
import FusionAtlas.Workspace.FileMap

/-!
The open templates of a project, with the classes and settings they are resolved against. Each
change of a template builds it anew from its text; what was handed out before stays as it was. The
disk is never part of the workspace: an operation is given the disk of its moment.
-/

set_option autoImplicit false
set_option relaxedAutoImplicit false

namespace FusionAtlas

/-- What the change of a class file does to templates that refer to it: their diagnostics are
computed anew, or the templates are built anew before that. -/
inductive InvalidationPolicy where
  | rediagnose | reresolve
  deriving DecidableEq, Repr

/-- What a workspace is set up with. -/
structure WorkspaceSettings where
  /-- Namespaces and the directories of their classes. -/
  roots : List (String × FilePath)
  hostExtension : String
  templateExtension : String
  policy : InvalidationPolicy
  deriving DecidableEq, Repr

namespace WorkspaceSettings

def defaultTemplateExtension : String := "fusion"

/-- The settings of a workspace without classes. -/
def standard : WorkspaceSettings :=
  ⟨[], ClassDirectory.defaultExtension, defaultTemplateExtension, .rediagnose⟩

def library (settings : WorkspaceSettings) : ClassLibrary :=
  .make (settings.roots.map fun root =>
    (ClassDirectory.make root.1 root.2).withExtension settings.hostExtension)

end WorkspaceSettings

/-- A template as it was built at some time. Building it again gives another identity. -/
structure Snapshot where
  identity : Nat
  file : TemplateFile
  deriving Repr

/-- Templates waiting to be diagnosed anew, and the number of the token that cancels this. -/
structure Batch where
  pending : List FileUri
  token : Nat
  deriving DecidableEq, Repr

/-- What running a batch did. -/
inductive BatchOutcome where
  | idle
  | completed (diagnosed : Nat)
  | cancelled (diagnosed remaining : Nat)
  deriving DecidableEq, Repr

/-- The state of a project. -/
structure Workspace where
  settings : WorkspaceSettings
  library : ClassLibrary
  config : Configuration
  files : FileMap Snapshot
  diagnostics : FileMap (List Diagnostic)
  batch : Option Batch
  /-- Tokens that were cancelled. -/
  cancelled : List Nat
  /-- Number of the next token. -/
  nextToken : Nat
  /-- Identity of the next snapshot. -/
  nextSnapshot : Nat
  deriving Repr

namespace Workspace

def make (settings : WorkspaceSettings) (config : Configuration) : Workspace :=
  ⟨settings, settings.library, config, .empty, .empty, none, [], 0, 0⟩

/-- The workspace that nothing is set up for. -/
def standard : Workspace := make .standard .empty

def helpers (ws : Workspace) : BoundHelpers := .ofConfiguration ws.config

/-- Use other settings. Templates are resolved against them when they are built next. -/
def setConfig (ws : Workspace) (config : Configuration) : Workspace := { ws with config }

def lookup (ws : Workspace) (disk : Disk) (fqcn : String) : Option LoadedClass × Workspace :=
  let (found, library) := ws.library.lookup disk fqcn
  (found, { ws with library })

/-- Resolve a file. Only the library of classes may change. -/
def resolveFile (ws : Workspace) (disk : Disk) (file : TemplateFile) : TemplateFile × Workspace :=
  let (resolved, library) := (file.resolve ws.helpers disk).run ws.library
  (resolved.file, { ws with library })

def build (ws : Workspace) (disk : Disk) (uri : FileUri) (text : String) :
    TemplateFile × Workspace :=
  ws.resolveFile disk (.ofText uri text)

/-- Keep a file as the current snapshot of its template, with its diagnostics. -/
def install (ws : Workspace) (file : TemplateFile) : Snapshot × Workspace :=
  let snapshot : Snapshot := ⟨ws.nextSnapshot, file⟩
  (snapshot,
    { ws with
      files := ws.files.insert file.uri snapshot
      diagnostics := ws.diagnostics.insert file.uri file.diagnostics
      nextSnapshot := ws.nextSnapshot + 1 })

def cancel (ws : Workspace) (token : Nat) : Workspace :=
  { ws with cancelled := token :: ws.cancelled }

def isCancelled (ws : Workspace) (token : Nat) : Bool := ws.cancelled.contains token

/-- Schedule templates for a new batch, cancelling the one before. -/
def replaceBatch (ws : Workspace) (pending : List FileUri) : Workspace :=
  let ws := match ws.batch with
    | some batch => ws.cancel batch.token
    | none => ws
  { ws with batch := some ⟨pending, ws.nextToken⟩, nextToken := ws.nextToken + 1 }

/-- Start the scheduled batch over. -/
def restartBatch (ws : Workspace) : Workspace :=
  match ws.batch with
  | some batch => ws.replaceBatch batch.pending
  | none => ws

def scheduleAll (ws : Workspace) : Workspace := ws.replaceBatch ws.files.uris

/-- Resolve a file and keep it as the current snapshot of its template. A scheduled batch starts
over. -/
def openFile (ws : Workspace) (disk : Disk) (file : TemplateFile) : Snapshot × Workspace :=
  let (file, ws) := ws.resolveFile disk file
  let (snapshot, ws) := ws.install file
  (snapshot, ws.restartBatch)

/-- Open a template, or replace one, from a text that was parsed before. -/
def openParsed (ws : Workspace) (disk : Disk) (uri : FileUri) (text : String) (tree : SyntaxTree)
    (errors : Array Template.SyntaxError) : Snapshot × Workspace :=
  ws.openFile disk (.ofTree uri text tree errors)

def openText (ws : Workspace) (disk : Disk) (uri : FileUri) (text : String) :
    Snapshot × Workspace :=
  ws.openFile disk (.ofText uri text)

def snapshot? (ws : Workspace) (uri : FileUri) : Option Snapshot := ws.files.get? uri

/-- Replace the text of an open template. -/
def update (ws : Workspace) (disk : Disk) (uri : FileUri) (text : String) :
    Option Snapshot × Workspace :=
  if ws.files.contains uri then
    let (snapshot, ws) := ws.openText disk uri text
    (some snapshot, ws)
  else (none, ws)

/-- Build an open template anew from the text it has. -/
def reresolve (ws : Workspace) (disk : Disk) (uri : FileUri) : Option Snapshot × Workspace :=
  match ws.snapshot? uri with
  | some old =>
    let (file, ws) := ws.build disk uri old.file.text
    let (snapshot, ws) := ws.install file
    (some snapshot, ws)
  | none => (none, ws)

def close (ws : Workspace) (uri : FileUri) : Workspace :=
  { ws with files := ws.files.erase uri, diagnostics := ws.diagnostics.erase uri }

def diagnosticsOf (ws : Workspace) (uri : FileUri) : List Diagnostic :=
  (ws.diagnostics.get? uri).getD []

/-- Diagnose a template anew, if it is still open. -/
def diagnose (ws : Workspace) (uri : FileUri) : Workspace :=
  match ws.snapshot? uri with
  | some snapshot =>
    { ws with diagnostics := ws.diagnostics.insert uri snapshot.file.diagnostics }
  | none => ws

/-- Diagnose pending templates one by one. Before each of them the batch may turn out to be
cancelled: it was before, or it is after `interrupt` templates. -/
def runPending (ws : Workspace) (token : Nat) (interrupt : Option Nat) :
    Nat → List FileUri → BatchOutcome × Workspace
  | diagnosed, [] => (.completed diagnosed, ws)
  | diagnosed, uri :: rest =>
    let interrupted := interrupt.any (· ≤ diagnosed)
    if ws.isCancelled token || interrupted then
      (.cancelled diagnosed (rest.length + 1), if interrupted then ws.cancel token else ws)
    else runPending (ws.diagnose uri) token interrupt (diagnosed + 1) rest

/-- Run the scheduled batch, which is then no longer scheduled. -/
def runBatch (ws : Workspace) (interrupt : Option Nat) : BatchOutcome × Workspace :=
  match ws.batch with
  | some batch => runPending { ws with batch := none } batch.token interrupt 0 batch.pending
  | none => (.idle, ws)

end Workspace

end FusionAtlas
