import GameExport.Bytes
import GameExport.Path
import GameExport.FileTree.Error

/-! # File trees

The files that a program sees, as a value: what stands at each location. A location is the
list of names from the root down, so it holds no links, dots or doubled separators; a path
becomes a location by resolving it (`FileTree.Resolve`). There are no permissions: what can be found
can be read, changed and removed. Main statement: after a node is put somewhere, that location holds
it and every other location holds what it held.
-/

namespace GameExport

abbrev Location := List String

inductive Node
  | file (content : Bytes)
  | directory
  /-- A symbolic link with its literal target. -/
  | link (target : Path)
  deriving DecidableEq, Repr, Inhabited

structure FileTree where
  nodes : List (Location × Node)
  /-- Where relative paths start. -/
  start : Location
  deriving Repr, Inhabited

namespace FileTree

def empty : FileTree := ⟨[], []⟩

def node? (tree : FileTree) (location : Location) : Option Node :=
  if location = [] then some .directory else tree.nodes.lookup location

def putNode (location : Location) (node : Node) :
    List (Location × Node) → List (Location × Node)
  | [] => [(location, node)]
  | (other, old) :: rest =>
      if other = location then (location, node) :: rest
      else (other, old) :: putNode location node rest

def put (tree : FileTree) (location : Location) (node : Node) : FileTree :=
  { tree with nodes := putNode location node tree.nodes }

def erase (tree : FileTree) (location : Location) : FileTree :=
  { tree with nodes := tree.nodes.filter fun entry => entry.1 != location }

def eraseBelow (tree : FileTree) (location : Location) : FileTree :=
  { tree with nodes := tree.nodes.filter fun entry => !location.isPrefixOf entry.1 }

def isDirectoryAt (tree : FileTree) (location : Location) : Bool :=
  tree.node? location == some .directory

def childrenOf (tree : FileTree) (location : Location) : List (String × Node) :=
  tree.nodes.filterMap fun (other, node) =>
    match other.getLast? with
    | some name => if other.dropLast = location then some (name, node) else none
    | none => none

private theorem lookup_putNode_self (location : Location) (node : Node)
    (nodes : List (Location × Node)) :
    (putNode location node nodes).lookup location = some node := by
  induction nodes with
  | nil => simp [putNode]
  | cons entry rest induction =>
      obtain ⟨other, old⟩ := entry
      by_cases same : other = location
      · simp [putNode, same]
      · have different : (location == other) = false := by simp [Ne.symm same]
        simp [putNode, same, List.lookup_cons, different, induction]

private theorem lookup_putNode_of_ne {location sought : Location} (different : sought ≠ location)
    (node : Node) (nodes : List (Location × Node)) :
    (putNode location node nodes).lookup sought = nodes.lookup sought := by
  have unequal : (sought == location) = false := by simp [different]
  induction nodes with
  | nil => simp [putNode, List.lookup_cons, unequal]
  | cons entry rest induction =>
      obtain ⟨other, old⟩ := entry
      by_cases same : other = location
      · subst same
        simp [putNode, List.lookup_cons, unequal]
      · simp [putNode, same, List.lookup_cons, induction]

@[simp] theorem node?_put_self (tree : FileTree) {location : Location} (node : Node)
    (below : location ≠ []) : (tree.put location node).node? location = some node := by
  simp [node?, put, below, lookup_putNode_self]

theorem node?_put_of_ne (tree : FileTree) {location sought : Location} (node : Node)
    (different : sought ≠ location) :
    (tree.put location node).node? sought = tree.node? sought := by
  simp [node?, put, lookup_putNode_of_ne different]

end FileTree

end GameExport
