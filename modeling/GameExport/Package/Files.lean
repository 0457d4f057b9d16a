import GameExport.FileTree.Listing
import GameExport.Package.Error

/-! # Listing, copying and joining files

What packaging does with whole files. Joining goes on when a part cannot be opened, and
reports it; what has been written stays even if joining fails later.
-/

namespace GameExport.Package

def listFiles (files : FileTree) (directory : Path) : Except PackageError (List String) :=
  (files.regularFiles directory).mapError (.io directory)

def copyFile (files : FileTree) (source target : Path) : Except PackageError FileTree :=
  (files.copy source target).mapError (.copy source target)

/-- Add the content of each part to the file at a location. A part that is missing is
reported; one that is a directory can be opened but not read. -/
def appendParts (files : FileTree) (output : Path) (location : Location) :
    List Path → FileTree × Except PackageError (List PackageError)
  | [] => (files, .ok [])
  | part :: rest =>
      match files.status part with
      | .error cause =>
          let (files, result) := appendParts files output location rest
          (files, result.map (.io part cause :: ·))
      | .ok (.file content) =>
          appendParts (files.append location content) output location rest
      | .ok _ => (files, .error (.io output .isDirectory))

/-- Write the contents of parts to a file, one after the other. The errors of the parts that
were left out are the result. -/
def concatenate (files : FileTree) (output : Path) (parts : List Path) :
    FileTree × Except PackageError (List PackageError) :=
  match files.writable output with
  | .error cause => (files, .error (.io output cause))
  | .ok location => appendParts (files.put location (.file [])) output location parts

end GameExport.Package
