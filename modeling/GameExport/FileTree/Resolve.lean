import GameExport.FileTree.Basic

/-! # Resolving paths

A path leads from name to name; a parent goes up from wherever the walk has come to, and a
link leads on to its target. The walk ends at a location, of which only the last name may
not exist yet. What happens at that last name depends on what the walk is for.
-/

namespace GameExport.FileTree

def linkLimit : Nat := 40

/-- The longest name, in bytes. -/
def nameLimit : Nat := 255

/-- A path must be shorter than this, in bytes. -/
def pathLimit : Nat := 4096

def steps (path : Path) : List String := (Path.pieces path.text).filter (· != "")

/-- Whether a path ends with a separator. What stands there has to be a directory then. -/
def endsOpen (path : Path) : Bool := path.text.toList.getLast? == some '/'

inductive Purpose
  /-- To see what a path leads to. -/
  | target
  /-- To see what stands at a path, be it a link. A separator at the end asks for the target
  of the link. -/
  | entry
  | opening
  | naming
  deriving DecidableEq, Repr

def Purpose.follows (purpose : Purpose) (isOpen : Bool) : Bool :=
  match purpose with
  | .target => true
  | .entry => isOpen
  | .opening => true
  | .naming => false

structure Arrival where
  location : Location
  isOpen : Bool
  deriving DecidableEq, Repr

/-- Walk from a location along steps, up to a link that is followed: `onward` is the walk from
there on, with the steps of its target in front. A link in the middle is always followed, one at
the end if the purpose says so; its target may end with a separator as well. -/
def walkAlong (tree : FileTree) (purpose : Purpose)
    (onward : Location → List String → Bool → Except FileError Arrival) (here : Location)
    (names : List String) (isOpen : Bool) : Except FileError Arrival :=
  match names with
  | [] => .ok ⟨here, isOpen⟩
  | name :: rest =>
      if !tree.isDirectoryAt here then .error .notDirectory
      else if name = "." then walkAlong tree purpose onward here rest isOpen
      else if name = ".." then walkAlong tree purpose onward here.dropLast rest isOpen
      else if purpose = .opening ∧ rest = [] ∧ isOpen then .error .isDirectory
      else if nameLimit < name.utf8ByteSize then .error .nameTooLong
      else
        match tree.node? (here ++ [name]) with
        | none => if rest = [] then .ok ⟨here ++ [name], isOpen⟩ else .error .missing
        | some (.link target) =>
            if rest = [] ∧ !purpose.follows isOpen then .ok ⟨here ++ [name], isOpen⟩
            else
              onward (if target.isAbsolute then [] else here) (steps target ++ rest)
                (isOpen || (rest.isEmpty && endsOpen target))
        | some _ => walkAlong tree purpose onward (here ++ [name]) rest isOpen

/-- Walk from a location along steps. `links` counts the links that may still be followed. -/
def walk (tree : FileTree) (purpose : Purpose) (links : Nat) :
    Location → List String → Bool → Except FileError Arrival :=
  match links with
  | 0 => walkAlong tree purpose fun _ _ _ => .error .tooManyLinks
  | links + 1 => walkAlong tree purpose (walk tree purpose links)

theorem walk_zero (tree : FileTree) (purpose : Purpose) :
    tree.walk purpose 0 = tree.walkAlong purpose fun _ _ _ => .error .tooManyLinks := by
  rw [walk]

theorem walk_succ (tree : FileTree) (purpose : Purpose) (links : Nat) :
    tree.walk purpose (links + 1) = tree.walkAlong purpose (tree.walk purpose links) := by
  rw [walk]

-- Whether two walks are the same is to be shown from the rules above, not by walking.
attribute [irreducible] walk

/-- Where a path leads, however long it is. The last name of it may be missing. -/
def follow (tree : FileTree) (purpose : Purpose) (path : Path) : Except FileError Arrival :=
  if path.text.toList.contains '\x00' then .error .zeroInPath
  else if path.text = "" then .error .missing
  else
    walk tree purpose linkLimit (if path.isAbsolute then [] else tree.start) (steps path)
      (endsOpen path)

def place (tree : FileTree) (purpose : Purpose) (path : Path) : Except FileError Arrival :=
  if pathLimit ≤ path.text.utf8ByteSize ∧ !path.text.toList.contains '\x00' then
    .error .nameTooLong
  else tree.follow purpose path

def seen (tree : FileTree) (arrival : Arrival) : Except FileError (Location × Node) :=
  match tree.node? arrival.location with
  | none => .error .missing
  | some node =>
      if arrival.isOpen && node != .directory then .error .notDirectory
      else .ok (arrival.location, node)

/-- What a path leads to, with its location. A link at its end is followed or not. -/
def find (tree : FileTree) (follow : Bool) (path : Path) : Except FileError (Location × Node) := do
  tree.seen (← tree.place (if follow then .target else .entry) path)

def status (tree : FileTree) (path : Path) : Except FileError Node :=
  (tree.find true path).map (·.2)

def pathExists (tree : FileTree) (path : Path) : Bool := (tree.status path).isOk

def isDirectory (tree : FileTree) (path : Path) : Bool :=
  match tree.status path with
  | .ok .directory => true
  | _ => false

def isFile (tree : FileTree) (path : Path) : Bool :=
  match tree.status path with
  | .ok (.file _) => true
  | _ => false

/-- The path without links and dots, if it leads to something. It may be of any length. -/
def canonical? (tree : FileTree) (path : Path) : Option Path :=
  match tree.follow .target path >>= tree.seen with
  | .ok (location, _) => some (Path.ofNames location)
  | .error _ => none

end GameExport.FileTree
