import GameExport.Archive.Format
import GameExport.FileTree.Listing
import GameExport.Package.Error

/-! # Archiving a directory

Every regular file below a directory becomes an entry, named by the way down to it. The
archive may stand in the directory it is made from, and is left out of itself.
-/

namespace GameExport

/-- What archives a directory: the files afterwards, and whether it succeeded. -/
abbrev Archiver :=
  FileTree → (directory output : Path) → FileTree × Except PackageError Unit

namespace Archive

def pathBelow (directory : Path) (names : List String) : Path := names.foldl Path.child directory

def entryOf (files : FileTree) (directory : Path) (names : List String) :
    Except PackageError Entry :=
  let path := pathBelow directory names
  match files.read path with
  | .ok content => .ok ⟨"/".intercalate names, content⟩
  | .error cause => .error (.io path cause)

def entriesBelow (files : FileTree) (directory output : Path) :
    Except PackageError (List Entry) := do
  let below ← (files.regularFilesBelow directory).mapError (.io directory)
  let others := below.filter fun names => !(pathBelow directory names).same output
  others.mapM (entryOf files directory)

/-- Archive a directory in a format. If that fails once the archive is there, it is an empty one. -/
def createWith (encode : List Entry → Bytes) : Archiver := fun files directory output =>
  match files.writable output with
  | .error cause => (files, .error (.io output cause))
  | .ok location =>
      match entriesBelow (files.put location (.file [])) directory output with
      | .ok entries => (files.put location (.file (encode entries)), .ok ())
      | .error error => (files.put location (.file (encode [])), .error error)

def create : Archiver := createWith encode

end Archive

end GameExport
