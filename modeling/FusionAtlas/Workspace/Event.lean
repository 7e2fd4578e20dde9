import FusionAtlas.Workspace

/-!
What a workspace does when it is told that a file was created, changed or deleted. The extension
tells class files from templates; a setting that names both names class files.
-/

set_option autoImplicit false
set_option relaxedAutoImplicit false

namespace FusionAtlas

/-- What happened to a file. -/
inductive FileChange where
  | created | changed | deleted
  deriving DecidableEq, Repr

/-- A change of a file. -/
structure FileEvent where
  uri : FileUri
  change : FileChange
  deriving DecidableEq, Repr

/-- What an event led to: whether classes were forgotten, which templates were built anew or closed,
and how many were scheduled for diagnosis. -/
structure EventOutcome where
  purged : Bool
  rebuilt : List FileUri
  removed : List FileUri
  scheduled : Nat
  deriving DecidableEq, Repr

namespace EventOutcome

def nothing : EventOutcome := ⟨false, [], [], 0⟩

end EventOutcome

namespace Workspace

/-- The open templates that refer to a class file, in the order of their names. -/
def dependents (ws : Workspace) (uri : FileUri) : List FileUri :=
  ws.files.uris.filter fun template =>
    (ws.snapshot? template).any fun snapshot => snapshot.file.refersTo uri

/-- Build one more template anew, and tell it if it was open. -/
def reresolveNext (disk : Disk) (state : List FileUri × Workspace) (uri : FileUri) :
    List FileUri × Workspace :=
  match state.2.reresolve disk uri with
  | (some _, ws) => (state.1 ++ [uri], ws)
  | (none, ws) => (state.1, ws)

/-- Build templates anew, one after the other, and tell which were open. -/
def reresolveAll (ws : Workspace) (disk : Disk) (uris : List FileUri) : List FileUri × Workspace :=
  uris.foldl (reresolveNext disk) ([], ws)

/-- A class file was created, changed or deleted. A class that was not loaded before is found when
it is asked for, so only what was loaded from the file matters. -/
def handleHostEvent (ws : Workspace) (disk : Disk) (event : FileEvent) : EventOutcome × Workspace :=
  let (forgot, library) := ws.library.purgeFile event.uri
  let purged : Workspace := { ws with library }
  if event.change = .created then (.nothing, ws)
  else if forgot then
    let affected := match ws.settings.policy with
      | .reresolve => purged.dependents event.uri
      | .rediagnose => []
    let (rebuilt, ws) := purged.reresolveAll disk affected
    (⟨true, rebuilt, [], ws.files.uris.length⟩, ws.scheduleAll)
  else (.nothing, purged)

/-- Open a template from its file, if it can be read. -/
def openFromDisk (ws : Workspace) (disk : Disk) (uri : FileUri) : EventOutcome × Workspace :=
  match uri.toPath?.map disk.readText with
  | some (.ok text) => (⟨false, [uri], [], 0⟩, (ws.openText disk uri text).2)
  | _ => (.nothing, ws)

/-- A template was created, changed or deleted. -/
def handleTemplateEvent (ws : Workspace) (disk : Disk) (event : FileEvent) :
    EventOutcome × Workspace :=
  match event.change with
  | .deleted =>
    if ws.files.contains event.uri then (⟨false, [], [event.uri], 0⟩, ws.close event.uri)
    else (.nothing, ws.close event.uri)
  | .changed =>
    if ws.files.contains event.uri then ws.openFromDisk disk event.uri else (.nothing, ws)
  | .created => ws.openFromDisk disk event.uri

def handleEvent (ws : Workspace) (disk : Disk) (event : FileEvent) : EventOutcome × Workspace :=
  if event.uri.hasExtension ws.settings.hostExtension then ws.handleHostEvent disk event
  else if event.uri.hasExtension ws.settings.templateExtension then
    ws.handleTemplateEvent disk event
  else (.nothing, ws)

end Workspace

end FusionAtlas
