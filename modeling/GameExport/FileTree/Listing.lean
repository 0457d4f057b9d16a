import GameExport.FileTree.Operations

/-! # Listing directories

What stands in a directory, in the order of the names, and everything below one, a directory
before its content. Links are listed and not followed, except that the directory to list may
itself be reached through one.
-/

namespace GameExport.FileTree

def insertByName (entry : String × Node) : List (String × Node) → List (String × Node)
  | [] => [entry]
  | other :: rest =>
      if entry.1 < other.1 then entry :: other :: rest else other :: insertByName entry rest

def sortedChildren (tree : FileTree) (location : Location) : List (String × Node) :=
  (tree.childrenOf location).foldr insertByName []

/-- Everything below a location, as names from there down. `depth` bounds how far down the
listing goes. -/
def below (tree : FileTree) : (depth : Nat) → Location → List (List String × Node)
  | 0, _ => []
  | depth + 1, location =>
      (tree.sortedChildren location).flatMap fun (name, node) =>
        ([name], node) :: match node with
          | .directory => (below tree depth (location ++ [name])).map
              fun (names, node) => (name :: names, node)
          | _ => []

def allBelow (tree : FileTree) (location : Location) : List (List String × Node) :=
  tree.below (tree.nodes.foldl (fun longest entry => max longest entry.1.length) 0) location

/-- The location at which a walk through a directory starts: nothing if the path leads to
something else than a directory. -/
def walkRoot (tree : FileTree) (directory : Path) : Except FileError (Option Location) :=
  let charged (error : FileError) := FileError.walk directory.text error
  match tree.find false directory with
  | .error error => .error (charged error)
  | .ok (location, .directory) => .ok (some location)
  | .ok (_, .file _) => .ok none
  | .ok (_, .link _) =>
      match tree.find true directory with
      | .error error => .error (charged error)
      | .ok (location, .directory) => .ok (some location)
      | .ok _ => .ok none

def regularFiles (tree : FileTree) (directory : Path) : Except FileError (List String) := do
  match ← tree.walkRoot directory with
  | none => .ok []
  | some location =>
      .ok ((tree.sortedChildren location).filterMap fun (name, node) =>
        match node with
        | .file _ => some name
        | _ => none)

def regularFilesBelow (tree : FileTree) (directory : Path) :
    Except FileError (List (List String)) := do
  match ← tree.walkRoot directory with
  | none => .ok []
  | some location =>
      .ok ((tree.allBelow location).filterMap fun (names, node) =>
        match node with
        | .file _ => some names
        | _ => none)

end GameExport.FileTree
