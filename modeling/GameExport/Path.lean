/-! # Paths

A path is a text; what it means is its components. Two paths are the same when their
components are, whatever separators and dots lie between. Joining, the parent and the file
name are defined on the text, so that a path keeps the spelling it was given.
-/

namespace GameExport

/-- A path as it was spelled. -/
structure Path where
  text : String
  deriving DecidableEq, Repr, Inhabited

namespace Path

inductive Component
  | root
  | here
  | parent
  | name (value : String)
  deriving DecidableEq, Repr

/-- The parts of a text between slashes. -/
def pieces (text : String) : List String := (text.toList.splitOn '/').map String.ofList

def isAbsolute (path : Path) : Bool := path.text.toList.head? == some '/'

/-- The component that a piece stands for; an empty piece and a dot stand for none. -/
def Component.ofPiece? (piece : String) : Option Component :=
  if piece = "" ∨ piece = "." then none
  else if piece = ".." then some .parent
  else some (.name piece)

/-- The components of a path. A dot counts only at the very front. -/
def components (path : Path) : List Component :=
  let parts := pieces path.text
  let front :=
    if path.isAbsolute then [Component.root]
    else if parts.head? = some "." then [Component.here]
    else []
  front ++ parts.filterMap Component.ofPiece?

def same (left right : Path) : Bool := left.components == right.components

def Component.rank : Component → Nat
  | .root => 0
  | .here => 1
  | .parent => 2
  | .name _ => 3

def Component.before : Component → Component → Bool
  | .name left, .name right => decide (left < right)
  | left, right => decide (left.rank < right.rank)

def componentsBefore : List Component → List Component → Bool
  | [], [] => false
  | [], _ :: _ => true
  | _ :: _, [] => false
  | left :: lefts, right :: rights =>
      if left = right then componentsBefore lefts rights else left.before right

def before (left right : Path) : Bool := componentsBefore left.components right.components

/-- A path below another. An absolute path replaces the one it is joined to. -/
def join (base : Path) (path : Path) : Path :=
  if path.isAbsolute then path
  else if base.text = "" then path
  else if base.text.toList.getLast? = some '/' then ⟨base.text ++ path.text⟩
  else ⟨base.text ++ "/" ++ path.text⟩

def child (base : Path) (name : String) : Path := base.join ⟨name⟩

def fileName? (path : Path) : Option String :=
  match path.components.getLast? with
  | some (.name value) => some value
  | _ => none

def fileName (path : Path) : String := path.fileName?.getD ""

def splitExtension (name : String) : String × Option String :=
  if name = ".." then (name, none)
  else
    let parts := name.toList.splitOn '.'
    let stem := ['.'].intercalate parts.dropLast
    if stem = [] then (name, none) else (String.ofList stem, parts.getLast?.map String.ofList)

def fileStem? (path : Path) : Option String :=
  path.fileName?.map fun name => (splitExtension name).1

def extension? (path : Path) : Option String :=
  path.fileName?.bind fun name => (splitExtension name).2

def trimEnd : List Char → List Char
  | '/' :: rest => trimEnd rest
  | '.' :: '/' :: rest => trimEnd ('/' :: rest)
  | text => text

/-- The path without its last component; a root and an empty path have none. -/
def parent? (path : Path) : Option Path :=
  match path.components.getLast? with
  | none => none
  | some .root => none
  | some _ =>
      let trimmed := trimEnd path.text.toList.reverse
      let rest := trimEnd (trimmed.dropWhile (· != '/'))
      let text := String.ofList rest.reverse
      some ⟨if text = "" ∧ path.isAbsolute then "/" else text⟩

def parent (path : Path) : Path := path.parent?.getD ⟨""⟩

def ofNames (names : List String) : Path :=
  match names with
  | [] => ⟨"/"⟩
  | names => ⟨String.join (names.map ("/" ++ ·))⟩

end Path

end GameExport
