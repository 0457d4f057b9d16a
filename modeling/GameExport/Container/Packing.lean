import GameExport.Container.Basic
import GameExport.FileTree.Operations

/-! # Packing files into a container

The sizes of all files are taken first, then the container is created, then the files are
read one after the other; one whose size has changed by then is refused. The container may
stand in the directory it is made from.
-/

namespace GameExport

abbrev Packer :=
  FileTree → (names : List String) → (directory output : Path) →
    FileTree × Except PackageError Unit

namespace Container

def directorySize : Nat := 4096

def fileSizes (files : FileTree) (directory : Path) (names : List String) :
    Except PackageError (List (String × Nat)) :=
  names.mapM fun name =>
    match files.status (directory.child name) with
    | .ok (.file content) => .ok (name, content.length)
    | .ok _ => .ok (name, directorySize)
    | .error cause => .error (.io (directory.child name) cause)

/-- What is read from a file to be added to the container at a location. The container itself
reads as empty, for it is read where writing has come to. -/
def blobAt (files : FileTree) (output : Path) (location : Location) (path : Path) :
    Except PackageError Bytes :=
  match files.find true path with
  | .error cause => .error (.io path cause)
  | .ok (place, .file content) => .ok (if place = location then [] else content)
  | .ok _ => .error (.io output .isDirectory)

def appendBlobs (files : FileTree) (directory output : Path) (location : Location) :
    List (String × Nat) → FileTree × Except PackageError Unit
  | [] => (files, .ok ())
  | (name, size) :: rest =>
      match blobAt files output location (directory.child name) with
      | .error error => (files, .error error)
      | .ok content =>
          let files := files.append location content
          if content.length = size then appendBlobs files directory output location rest
          else
            (files, .error
              (.invalidContainer (directory.child name) (.sizeChanged content.length size)))

def pack : Packer := fun files names directory output =>
  match fileSizes files directory names with
  | .error error => (files, .error error)
  | .ok sizes =>
      let manifest := manifestBytes sizes
      if UInt32.size ≤ manifest.length then
        (files, .error (.invalidContainer output .manifestTooLarge))
      else
        match files.writable output with
        | .error cause => (files, .error (.io output cause))
        | .ok location =>
            appendBlobs (files.put location (.file (header manifest.length ++ manifest)))
              directory output location sizes

def load (files : FileTree) (path : Path) : Except PackageError Container :=
  match files.read path with
  | .error cause => .error (.io path cause)
  | .ok bytes => (parse bytes).mapError (.invalidContainer path)

end Container

end GameExport
