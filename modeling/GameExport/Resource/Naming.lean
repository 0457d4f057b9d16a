import GameExport.FileTree.Resolve

/-! # Names of resources

In a game all resources stand in one directory, so each file gets a name of its own there:
its old file name, or that with a number if the name is taken. Files are told apart by where
their paths lead. Main statement: a name that is given out is free.
-/

namespace GameExport

/-- The names that files have been given, in the order of their paths. -/
structure ResourceNames where
  entries : List (Path × String)
  deriving DecidableEq, Repr

namespace ResourceNames

def empty : ResourceNames := ⟨[]⟩

def name? (names : ResourceNames) (file : Path) : Option String :=
  (names.entries.find? fun entry => entry.1.same file).map (·.2)

def isTaken (names : ResourceNames) (name : String) : Bool :=
  names.entries.any fun entry => entry.2 == name

def unnamed : String := "resource"

def numbered (file : Path) (number : Nat) : String :=
  let stem := file.fileStem?.getD unnamed
  match file.extension? with
  | some ending => s!"{stem}{number}.{ending}"
  | none => s!"{stem}{number}"

def firstFree? (names : ResourceNames) (file : Path) : (tries number : Nat) → Option String
  | 0, _ => none
  | tries + 1, number =>
      let name := numbered file number
      if names.isTaken name then firstFree? names file tries (number + 1) else some name

/-- A free name for a file. Among one number more than there are names, one is free. -/
def freeName (names : ResourceNames) (file : Path) : String :=
  let name := file.fileName?.getD unnamed
  if names.isTaken name then
    (firstFree? names file (names.entries.length + 1) 2).getD name
  else name

def insertByPath (entry : Path × String) : List (Path × String) → List (Path × String)
  | [] => [entry]
  | other :: rest =>
      if entry.1.before other.1 then entry :: other :: rest
      else other :: insertByPath entry rest

def give (names : ResourceNames) (file : Path) : String × ResourceNames :=
  match names.name? file with
  | some name => (name, names)
  | none =>
      let name := names.freeName file
      (name, ⟨insertByPath (file, name) names.entries⟩)

/-- Where a path of a project leads: the place itself if there is something, or else the path
below the base directory. -/
def resolve (files : FileTree) (base : Path) (path : String) : Path :=
  let joined := base.join ⟨path⟩
  (files.canonical? joined).getD joined

/-- Replace a path of a project by the name of the file it leads to. An empty path stays. -/
def expose (files : FileTree) (base : Path) (path : String) : StateM ResourceNames String :=
  fun names =>
    if path = "" then (path, names) else names.give (resolve files base path)

theorem isTaken_of_firstFree? {names : ResourceNames} {file : Path} {tries number : Nat}
    {name : String} (found : names.firstFree? file tries number = some name) :
    names.isTaken name = false := by
  induction tries generalizing number with
  | zero => simp [firstFree?] at found
  | succ tries induction =>
      simp only [firstFree?] at found
      split at found
      · exact induction found
      · rename_i free
        simp at found
        subst found
        simpa using free

end ResourceNames

end GameExport
