import GameExport.Proofs.FileTree.Plain
import Mathlib.Logic.Function.Basic

/-! # Directories of files

A directory in which nothing but files stands is told by what each name holds. Main statement: an
operation that succeeds on the path of an entry changes what that name holds and nothing else.
-/

namespace GameExport.FileTree

/-- A path leads to a directory in which each name holds a file of the given content or nothing. -/
structure FlatDirectory (directory : Path) (here : Location) (contents : String → Option Bytes)
    (tree : FileTree) : Prop where
  kept : tree.Kept
  found : tree.find true directory = .ok (here, .directory)
  holds : ∀ name, tree.node? (here ++ [name]) = (contents name).map .file

variable {directory : Path} {here : Location} {contents : String → Option Bytes} {tree : FileTree}

namespace FlatDirectory

/-! ## Where the paths of entries lead -/

theorem notEmpty (flat : FlatDirectory directory here contents tree) : directory.text ≠ "" := by
  rcases find_eq_ok_iff.mp flat.found with ⟨isOpen, arrives, _⟩
  exact (place_eq_ok_iff.mp arrives).1.notEmpty

theorem inside (flat : FlatDirectory directory here contents tree) :
    tree.isDirectoryAt here = true := by
  rcases find_eq_ok_iff.mp flat.found with ⟨isOpen, _, taken, _⟩
  rw [isDirectoryAt, taken]
  rfl

theorem leaf (flat : FlatDirectory directory here contents tree) (name : String) :
    tree.LeafAt (here ++ [name]) := by
  intro node taken
  rw [flat.holds, Option.mem_def, Option.map_eq_some_iff] at taken
  rcases taken with ⟨content, _, same⟩
  exact ⟨content, same.symm⟩

theorem holds_of_node? (flat : FlatDirectory directory here contents tree) {name : String}
    {node : Node} (taken : tree.node? (here ++ [name]) = some node) :
    ∃ content, contents name = some content ∧ node = .file content := by
  rw [flat.holds, Option.map_eq_some_iff] at taken
  rcases taken with ⟨content, held, same⟩
  exact ⟨content, held, same.symm⟩

theorem node?_eq_some (flat : FlatDirectory directory here contents tree) {name : String}
    {content : Bytes} (held : contents name = some content) :
    tree.node? (here ++ [name]) = some (.file content) := by
  rw [flat.holds, held]
  rfl

theorem node?_eq_none (flat : FlatDirectory directory here contents tree) {name : String}
    (free : contents name = none) : tree.node? (here ++ [name]) = none := by
  rw [flat.holds, free]
  rfl

theorem plain (flat : FlatDirectory directory here contents tree) :
    PlainDirectory directory here tree where
  kept := flat.kept
  home := by
    rw [HomeOf, if_neg flat.notEmpty]
    exact flat.found
  noLink := by
    intro name target taken
    rcases flat.holds_of_node? taken with ⟨content, _, same⟩
    cases same

theorem find_eq (flat : FlatDirectory directory here contents tree) {name : String}
    (isName : IsName name) {location : Location} {node : Node}
    (found : tree.find true (directory.child name) = .ok (location, node)) :
    location = here ++ [name] ∧ ∃ content, contents name = some content ∧ node = .file content := by
  rcases flat.plain.find_eq isName found with ⟨rfl, taken⟩
  exact ⟨rfl, flat.holds_of_node? taken⟩

theorem read_eq (flat : FlatDirectory directory here contents tree) {name : String}
    (isName : IsName name) {content : Bytes}
    (reads : tree.read (directory.child name) = .ok content) : contents name = some content := by
  rcases read_eq_ok_iff.mp reads with ⟨location, found⟩
  rcases (flat.find_eq isName found).2 with ⟨other, held, same⟩
  cases same
  exact held

theorem writable_eq (flat : FlatDirectory directory here contents tree) {name : String}
    (isName : IsName name) {location : Location}
    (writable : tree.writable (directory.child name) = .ok location) :
    location = here ++ [name] :=
  (flat.plain.writable_eq isName writable).1

/-! ## Changes -/

theorem differAt (flat : FlatDirectory directory here contents tree) {name : String}
    {after : FileTree} (differ : DifferAt (here ++ [name]) tree after) (kept : after.Kept)
    {content : Option Bytes} (held : after.node? (here ++ [name]) = content.map .file) :
    FlatDirectory directory here (Function.update contents name content) after where
  kept := kept
  found := find_differAt differ flat.found (by simp)
  holds other := by
    by_cases same : other = name
    · rw [same, Function.update_self, held]
    · rw [Function.update_of_ne same, differ.elsewhere _ (by simpa using same), flat.holds]

theorem put (flat : FlatDirectory directory here contents tree) {name : String}
    (isName : IsName name) (content : Bytes) :
    FlatDirectory directory here (Function.update contents name (some content))
      (tree.put (here ++ [name]) (.file content)) :=
  flat.differAt ((flat.leaf name).differAt_put content)
    (flat.kept.put flat.inside isName (flat.leaf name) content) (node?_put_self tree _ (by simp))

theorem erase (flat : FlatDirectory directory here contents tree) (name : String) :
    FlatDirectory directory here (Function.update contents name none)
      (tree.erase (here ++ [name])) :=
  flat.differAt (flat.leaf name).differAt_erase (flat.kept.erase flat.inside (flat.leaf name))
    (node?_erase_self tree (by simp))

theorem write_eq (flat : FlatDirectory directory here contents tree) {name : String}
    (isName : IsName name) {content : Bytes} {after : FileTree}
    (written : tree.write (directory.child name) content = .ok after) :
    after = tree.put (here ++ [name]) (.file content) :=
  flat.plain.write_eq isName written

theorem copy_eq (flat : FlatDirectory directory here contents tree) {name : String}
    (isName : IsName name) (free : contents name = none) {source : Path} {after : FileTree}
    (copied : tree.copy source (directory.child name) = .ok after) :
    ∃ content, tree.read source = .ok content ∧
      after = tree.put (here ++ [name]) (.file content) := by
  rcases flat.plain.copy_eq isName copied with ⟨location, held, content, found, _, puts, same⟩
  have apart : location ≠ here ++ [name] := by
    rintro rfl
    rcases find_eq_ok_iff.mp found with ⟨_, _, taken, _⟩
    rw [flat.node?_eq_none free] at taken
    cases taken
  rw [same apart] at puts
  exact ⟨held, read_eq_ok_iff.mpr ⟨location, found⟩, puts⟩

theorem removeFile_eq (flat : FlatDirectory directory here contents tree) {name : String}
    (isName : IsName name) {after : FileTree}
    (removed : tree.removeFile (directory.child name) = .ok after) :
    after = tree.erase (here ++ [name]) :=
  (flat.plain.removeFile_eq isName removed).1

theorem removeFile (flat : FlatDirectory directory here contents tree) {name : String}
    (isName : IsName name) {after : FileTree}
    (removed : tree.removeFile (directory.child name) = .ok after) :
    FlatDirectory directory here (Function.update contents name none) after := by
  rw [flat.removeFile_eq isName removed]
  exact flat.erase name

/-! ## Listing -/

theorem listFiles_eq (flat : FlatDirectory directory here contents tree) {names : List String}
    (listed : Package.listFiles tree directory = .ok names) :
    names.Nodup ∧ ∀ name, name ∈ names ↔ ∃ content, contents name = some content := by
  rcases flat.plain.listFiles_eq listed with ⟨distinct, members⟩
  refine ⟨distinct, fun name => (members name).trans ?_⟩
  constructor
  · rintro ⟨content, taken⟩
    rcases flat.holds_of_node? taken with ⟨held, holds, _⟩
    exact ⟨held, holds⟩
  · rintro ⟨content, held⟩
    exact ⟨content, flat.node?_eq_some held⟩

end FlatDirectory

/-! ## Before a path is known to lead somewhere -/

/-- If a path leads to a directory, then each name holds a file of the given content or nothing
there. -/
structure Holding (directory : Path) (contents : String → Option Bytes) (tree : FileTree) :
    Prop where
  kept : tree.Kept
  notEmpty : directory.text ≠ ""
  holds : ∀ here node, tree.find true directory = .ok (here, node) →
    ∀ name, tree.node? (here ++ [name]) = (contents name).map .file

theorem FlatDirectory.holding (flat : FlatDirectory directory here contents tree) :
    Holding directory contents tree where
  kept := flat.kept
  notEmpty := flat.notEmpty
  holds there node found := by
    rw [flat.found] at found
    cases found
    exact flat.holds

theorem Holding.flat (holding : Holding directory contents tree) {name : String}
    (isName : IsName name) {location : Location}
    (writable : tree.writable (directory.child name) = .ok location) :
    ∃ here, FlatDirectory directory here contents tree := by
  have arrives := ((writable_eq_ok_iff holding.kept.rooted).mp writable).1
  rcases place_child holding.notEmpty isName arrives with ⟨here, found, _⟩
  exact ⟨here, holding.kept, found, holding.holds here _ found⟩

theorem writable_of_copy {source target : Path} {after : FileTree}
    (copied : tree.copy source target = .ok after) :
    ∃ location, tree.writable target = .ok location := by
  rcases of_copy copied with ⟨_, _, _, _, _, emptied, _, _⟩
  rcases writable_of_write emptied with ⟨location, writable, _⟩
  exact ⟨location, writable⟩

end GameExport.FileTree
