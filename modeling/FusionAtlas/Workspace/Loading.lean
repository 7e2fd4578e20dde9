import FusionAtlas.Disk.Collect
import FusionAtlas.Workspace

/-!
Loading a project from disk: all templates of a directory, a single one, or the settings files of a
directory.
-/

set_option autoImplicit false
set_option relaxedAutoImplicit false

namespace FusionAtlas

/-- Why a project cannot be loaded. -/
inductive LoadError where
  | notADirectory (path : FilePath)
  | unreadable (path : FilePath) (fault : DiskFault)
  | config (error : ConfigError)
  deriving DecidableEq, Repr

namespace LoadError

/-- What an error says, with the words of the YAML library where these are given. -/
def message (error : LoadError) (words : Option (Yaml.Fault → String) := none) : String :=
  match error with
  | notADirectory path => "directory not found: " ++ path.display
  | unreadable path fault => "cannot read " ++ path.display ++ ": " ++ fault.message
  | config error => error.message words

end LoadError

namespace Disk

/-- The files of a directory that must exist. -/
def projectFiles (disk : Disk) (directory : FilePath) (extensions : List String) :
    Except LoadError (List FilePath) :=
  if disk.isDirectory directory then
    (disk.collect directory extensions).mapError (.unreadable directory)
  else .error (.notADirectory directory)

/-- The text of a file that must be readable. -/
def projectText (disk : Disk) (path : FilePath) : Except LoadError String :=
  (disk.readText path).mapError (.unreadable path)

end Disk

namespace Configuration

/-- Add the settings of a file on top. -/
def pushFile (disk : Disk) (config : Configuration) (path : FilePath) :
    Except LoadError Configuration := do
  let text ← disk.projectText path
  (config.pushText (.ofPath path) text).mapError .config

/-- The settings files of a directory, in the order of their paths. -/
def load (disk : Disk) (directory : FilePath) : Except LoadError Configuration := do
  let paths ← disk.projectFiles directory ["yaml", "yml"]
  (paths.filter FilePath.isSettingsFile).foldlM (pushFile disk) .empty

end Configuration

/-- Which templates of a directory were opened, and which files could not be read. -/
structure LoadReport where
  loaded : List FileUri
  failed : List (FilePath × DiskFault)
  deriving DecidableEq, Repr

/-- A template that was read from disk and parsed. -/
structure ReadTemplate where
  path : FilePath
  text : String
  parsed : Parsed

/-- Read and parse a template. Why it cannot be read is noted with its path. -/
def Disk.readTemplate (disk : Disk) (path : FilePath) : Except (FilePath × DiskFault) ReadTemplate :=
  match disk.readText path with
  | .ok text => .ok ⟨path, text, parseTemplate text⟩
  | .error fault => .error (path, fault)

namespace Workspace

/-- Open a template that was read, and note in the report that it was, or that it could not be. -/
def openRead (disk : Disk) (report : LoadReport) :
    Except (FilePath × DiskFault) ReadTemplate → StateM Workspace LoadReport
  | .ok template => do
    let uri := FileUri.ofPath template.path
    let ws ← get
    set (ws.openParsed disk uri template.text template.parsed.tree template.parsed.errors).2
    return { report with loaded := report.loaded ++ [uri] }
  | .error failure => return { report with failed := report.failed ++ [failure] }

/-- Open all templates of a directory, in the order of their paths. All of them are read and parsed before the
first is opened. -/
def openDirectory (disk : Disk) (directory : FilePath) : ExceptT LoadError (StateM Workspace) LoadReport := do
  let ws ← get
  let paths ← ofExcept (disk.projectFiles directory [ws.settings.templateExtension])
  let results := paths.map disk.readTemplate
  results.foldlM (fun report result => openRead disk report result) ⟨[], []⟩

def loadDirectory (ws : Workspace) (disk : Disk) (directory : FilePath) :
    Except LoadError (LoadReport × Workspace) :=
  let (result, ws) := (openDirectory disk directory).run.run ws
  result.map fun report => (report, ws)

def loadFile (ws : Workspace) (disk : Disk) (path : FilePath) :
    Except LoadError (FileUri × Workspace) :=
  (disk.projectText path).map fun text =>
    let uri := FileUri.ofPath path
    (uri, (ws.openText disk uri text).2)

end Workspace

end FusionAtlas
