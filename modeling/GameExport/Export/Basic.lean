import GameExport.Archive.Creation
import GameExport.Container.Packing
import GameExport.Export.Error
import GameExport.Export.Stage
import GameExport.Extension
import GameExport.Generation.Source
import GameExport.Notice.Basic
import GameExport.Queue.Waiting
import GameExport.Resource.Exposure
import GameExport.Settings.Environment

/-! # What an export works with

An export is given a tool, which is how the computer is set up, and a request, which is what to
export and for whom. While it runs it keeps a state, in which it changes its own copy of the
project, and it may end early with an error. Whatever it tells the host may make the host change
files or cancel the export.
-/

namespace GameExport

inductive WriterFailure
  | refused (cause : GenerationError)
  | brokeDown
  deriving DecidableEq, Repr

abbrev CodeWriter := Project → UnitName → NameSet → Except WriterFailure String

def Generator.writer (generate : Generator) : CodeWriter := fun project unit compiled =>
  (generate project unit compiled).mapError .refused

structure ExportTool where
  settings : Settings
  /-- The directory in which games are put together, one at a time. -/
  workingDirectory : Path
  extensions : ExtensionRegistry
  write : CodeWriter
  pack : Packer
  archive : Archiver
  compiler : Compiler

structure ExportOptions where
  output : Path
  targets : TargetSet
  /-- Whether the game is to be one self-extracting executable, where there are such. -/
  compress : Bool
  optimize : Bool
  deriving DecidableEq, Repr

structure ExportRequest where
  project : Project
  options : ExportOptions
  caller : Token
  /-- What tells the token of this export's jobs from all others. -/
  tokenId : Nat
  react : Notice Progress → World → World

/-- The token of an export's jobs: it fires with that of whoever asks, and when a job takes too
long. -/
def ExportRequest.token (request : ExportRequest) : Token := request.caller.child request.tokenId

structure SubmittedJob where
  job : Job
  ended : Workshop.WaitEnd

structure ExportState where
  workshop : Workshop
  /-- The export's own copy of the project. -/
  project : Project
  resources : ResourceNames
  sources : NameSet
  objects : List Path
  stages : List Stage
  warnings : List ExportError
  artifacts : List Path
  jobs : List SubmittedJob
  notices : List (Notice Progress)

namespace ExportState

def initial (workshop : Workshop) (project : Project) : ExportState where
  workshop := workshop
  project := project
  resources := .empty
  sources := .empty
  objects := []
  stages := [.start]
  warnings := []
  artifacts := []
  jobs := []
  notices := []

def files (state : ExportState) : FileTree := state.workshop.world.files

def withFiles (state : ExportState) (files : FileTree) : ExportState :=
  { state with
    workshop := { state.workshop with world := { state.workshop.world with files := files } } }

end ExportState

abbrev ExportM := ExceptT ExportError (StateM ExportState)

namespace ExportM

def tell (request : ExportRequest) (notice : Notice Progress) : ExportM Unit :=
  modify fun state =>
    let world := request.react notice state.workshop.world
    { state with
      workshop := { state.workshop with world := world }
      notices := state.notices ++ [notice] }

def say (request : ExportRequest) (text : String) (detail : Option String) : ExportM Unit :=
  tell request (.message text detail)

def progress (request : ExportRequest) (value : Progress) : ExportM Unit :=
  tell request (.progress value)

def enter (stage : Stage) : ExportM Unit :=
  modify fun state => { state with stages := state.stages ++ [stage] }

/-- Record an error, unless it is fatal: that one ends the export. -/
def record (request : ExportRequest) (error : ExportError) : ExportM Unit :=
  if error.isFatal then throw error
  else do
    tell request (.error error.message)
    modify fun state => { state with warnings := state.warnings ++ [error] }

def attempt {ε : Type} (request : ExportRequest) (change : FileTree → Except ε FileTree)
    (blame : ε → ExportError) : ExportM Unit := do
  match change (← get).files with
  | .ok files => modify fun state => state.withFiles files
  | .error cause => record request (blame cause)

def changingFiles {ε α : Type} (change : FileTree → FileTree × Except ε α) :
    ExportM (Except ε α) := do
  let (files, result) := change (← get).files
  modify fun state => state.withFiles files
  pure result

end ExportM

end GameExport
