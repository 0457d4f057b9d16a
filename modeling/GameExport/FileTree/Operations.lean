import GameExport.FileTree.Resolve

/-! # Reading and changing files

Each operation takes a tree and gives the tree after it, or the error that left the tree as
it was. Creating several directories may fail halfway; it gives the tree in any case. As there are
no permissions, removing a file only fails where its path leads nowhere or a directory stands.
-/

namespace GameExport.FileTree

def read (tree : FileTree) (path : Path) : Except FileError Bytes := do
  match ← tree.status path with
  | .file content => .ok content
  | _ => .error .isDirectory

def readText (tree : FileTree) (path : Path) : Except FileError String := do
  match Bytes.text? (← tree.read path) with
  | some text => .ok text
  | none => .error .notText

def writable (tree : FileTree) (path : Path) : Except FileError Location := do
  let arrival ← tree.place .opening path
  if tree.isDirectoryAt arrival.location then .error .isDirectory else .ok arrival.location

def write (tree : FileTree) (path : Path) (content : Bytes) : Except FileError FileTree := do
  .ok (tree.put (← tree.writable path) (.file content))

def append (tree : FileTree) (location : Location) (more : Bytes) : FileTree :=
  match tree.node? location with
  | some (.file content) => tree.put location (.file (content ++ more))
  | _ => tree.put location (.file more)

/-- Copy a file over another. The target is emptied before the source is read, so a file
copied onto itself ends up empty. -/
def copy (tree : FileTree) (source target : Path) : Except FileError FileTree := do
  match ← tree.status source with
  | .file _ =>
      let emptied ← tree.write target []
      emptied.write target (← emptied.read source)
  | _ => .error .notRegular

def removeFile (tree : FileTree) (path : Path) : Except FileError FileTree := do
  let arrival ← tree.place .naming path
  match ← tree.seen arrival with
  | (_, .directory) => .error .isDirectory
  | (location, _) => .ok (tree.erase location)

/-- Remove what stands at a path, a directory with everything in it. A link is removed, not
followed. -/
def removeAll (tree : FileTree) (path : Path) : Except FileError FileTree := do
  let (location, _) ← tree.find false path
  .ok (tree.eraseBelow location)

def createDirectory (tree : FileTree) (path : Path) : Except FileError FileTree := do
  let arrival ← tree.place .naming path
  match tree.node? arrival.location with
  | some _ => .error .alreadyExists
  | none => .ok (tree.put arrival.location .directory)

def ancestors : (steps : Nat) → Path → List Path
  | 0, _ => []
  | steps + 1, path =>
      match path.parent? with
      | some parent => path :: ancestors steps parent
      | none => []

/-- Create the directories of a list, each unless it is there. Those before one that cannot
be created stay. -/
def createEach (tree : FileTree) : List Path → FileTree × Except FileError Unit
  | [] => (tree, .ok ())
  | path :: rest =>
      match tree.createDirectory path with
      | .ok tree => createEach tree rest
      | .error error =>
          if tree.isDirectory path then createEach tree rest else (tree, .error error)

/-- Those of a path and its ancestors that have to be created, outermost first: up to the
first that can be created or is there. -/
def uncreated (tree : FileTree) : List Path → List Path → Except FileError (List Path)
  | [], found => .ok found
  | path :: rest, found =>
      match tree.createDirectory path with
      | .ok _ => .ok (path :: found)
      | .error error =>
          if error = .missing then uncreated tree rest (path :: found)
          else if tree.isDirectory path then .ok found
          else .error error

/-- Create a directory and those above it that are missing: the tree afterwards, and whether
the directory is there now. -/
def createDirectories (tree : FileTree) (path : Path) : FileTree × Except FileError Unit :=
  if path.text = "" then (tree, .ok ())
  else
    match tree.uncreated (ancestors path.text.length.succ path) [] with
    | .ok needed => tree.createEach needed
    | .error error => (tree, .error error)

/-- Put a link at a path; it fails if something is there. The target is a path that can be
walked: it is not empty, not too long and without zero characters. -/
def createLink (tree : FileTree) (path target : Path) : Except FileError FileTree := do
  if target.text.toList.contains '\x00' then .error .zeroInPath
  if target.text = "" then .error .missing
  if pathLimit ≤ target.text.utf8ByteSize then .error .nameTooLong
  let arrival ← tree.place .naming path
  match tree.node? arrival.location with
  | some _ => .error .alreadyExists
  | none =>
      if arrival.isOpen then .error .missing
      else .ok (tree.put arrival.location (.link target))

end GameExport.FileTree
