import GameExport.Project.Document
import GameExport.FileTree.Operations

/-! # Project files

Reading a project from a file and writing it to one, with the reasons why that can fail.
-/

namespace GameExport

inductive ProjectError
  | read (path : Path) (cause : FileError)
  | parse (path : Path)
  | write (path : Path) (cause : FileError)
  deriving DecidableEq, Repr

def ProjectError.message : ProjectError → String
  | .read path cause => s!"failed to read project {path.text}: {cause.message}"
  | .parse path => s!"failed to parse project {path.text}: {Json.unreadable}"
  | .write path cause => s!"failed to write project {path.text}: {cause.message}"

namespace Project

def load (files : FileTree) (path : Path) : Except ProjectError Project :=
  match files.readText path with
  | .error cause => .error (.read path cause)
  | .ok text =>
      match ofText? path text with
      | some project => .ok project
      | none => .error (.parse path)

def save (project : Project) (files : FileTree) (path : Path) : Except ProjectError FileTree :=
  match files.write path (Bytes.ofText project.text) with
  | .ok files => .ok files
  | .error cause => .error (.write path cause)

end Project

end GameExport
