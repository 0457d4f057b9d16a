import GameExport.Json.Printer
import GameExport.Json.Sorted
import GameExport.Path

/-! # Projects

What a game is made of: scenes and sheets of external events, source files, resources,
objects and the extensions in use. Events form trees. Data that only the editor uses is kept
as it is, in the one form in which its names are sorted.
-/

namespace GameExport

inductive Argument
  | value (text : String)
  | file (path : String)
  deriving DecidableEq, Repr

structure Instruction where
  name : String
  arguments : List Argument
  deriving DecidableEq, Repr

inductive Event
  | standard (instructions : List Instruction) (subEvents : List Event)
  /-- The events of an external sheet, or of another scene, at this place. -/
  | link (target : String)
  | code (text : String) (dependencies : List String) (subEvents : List Event)
  | comment (text : String)
  deriving Repr, Inhabited

abbrev EditorData := { fields : List (String × Json) // Json.sorted (.object fields) = true }

structure GameObject where
  name : String
  kind : String
  resources : List String
  deriving DecidableEq, Repr

structure Scene where
  name : String
  objects : List GameObject
  events : List Event
  profilerEnabled : Bool
  editor : Option EditorData
  deriving Repr

structure ExternalEvents where
  name : String
  /-- The scene that the sheet was written for; it has no effect. -/
  associatedScene : String
  events : List Event
  deriving Repr

structure SourceFile where
  name : String
  file : String
  language : String
  deriving DecidableEq, Repr

structure Resource where
  name : String
  kind : String
  file : String
  /-- Some resources have no file. -/
  usesFile : Bool
  deriving DecidableEq, Repr

structure Project where
  name : String
  /-- The file that the project was read from. Relative paths start in its directory. -/
  file : Path
  scenes : List Scene
  externalEvents : List ExternalEvents
  sourceFiles : List SourceFile
  resources : List Resource
  objects : List GameObject
  extensions : List String
  windowsExecutable : String
  linuxExecutable : String
  macExecutable : String
  usesExternalSources : Bool
  editor : Option EditorData
  deriving Repr

namespace SourceFile

def nativeLanguage : String := "C++"

def isNative (source : SourceFile) : Bool := source.language == nativeLanguage

end SourceFile

namespace Project

def baseDirectory (project : Project) : Path := project.file.parent

def scene? (project : Project) (name : String) : Option Scene :=
  project.scenes.find? fun scene => scene.name == name

def sheet? (project : Project) (name : String) : Option ExternalEvents :=
  project.externalEvents.find? fun sheet => sheet.name == name

/-- The first source file of a name that is native. -/
def nativeSource? (project : Project) (name : String) : Option SourceFile :=
  project.sourceFiles.find? fun source => source.name == name && source.isNative

def windowsName (project : Project) : String :=
  if project.windowsExecutable = "" then "GameWin.exe" else project.windowsExecutable ++ ".exe"

def linuxName (project : Project) : String :=
  if project.linuxExecutable = "" then "GameLinux" else project.linuxExecutable

def macName (project : Project) : String :=
  if project.macExecutable = "" then "GameMac" else project.macExecutable

end Project

end GameExport
