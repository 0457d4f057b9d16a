import GameExport.Package.Files
import GameExport.Proofs.FileTree.Change

/-! # Directories without links

Where no link stands in a directory, whatever is done at the path of an entry is done to the entry
of that name. Main statements: what was copied to an entry can be read there, nothing else is
changed by copying or removing an entry, and a listing gives the names of the files.
-/

namespace GameExport.FileTree

def isLink : Node → Bool
  | .link _ => true
  | _ => false

/-- A path leads to a directory in which no link stands. -/
structure PlainDirectory (directory : Path) (here : Location) (tree : FileTree) : Prop where
  kept : tree.Kept
  home : tree.HomeOf directory here
  noLink : ∀ name target, tree.node? (here ++ [name]) ≠ some (.link target)

/-- A walk that looks at what stands at a path arrives where one that follows a last link does, if
no link stands there. -/
theorem Walks.target_of_entry {tree : FileTree} {links : Nat} {here : Location}
    {names : List String} {isOpen : Bool} {arrival : Arrival}
    (walks : Walks tree .entry links here names isOpen arrival)
    (noLink : ∀ target, tree.node? arrival.location ≠ some (.link target)) :
    Walks tree .target links here names isOpen arrival := by
  have asTarget {name : String} {rest : List String} {isOpen : Bool}
      (named : Named .entry name rest isOpen) : Named .target name rest isOpen :=
    ⟨named.notHere, named.notParent, fun refused => Purpose.noConfusion refused.1, named.short⟩
  induction walks with
  | done => exact .done
  | stay inside next induction => exact .stay inside (induction noLink)
  | up inside next induction => exact .up inside (induction noLink)
  | missing inside named free => exact .missing inside (asTarget named) free
  | atLink inside named taken stops => exact absurd taken (noLink _)
  | along inside named taken follows next induction =>
      exact .along inside (asTarget named) taken (fun stops => Bool.noConfusion stops.2)
        (induction noLink)
  | enter inside named taken _ next induction =>
      rename_i notLink
      exact .enter inside (asTarget named) taken notLink (induction noLink)

theorem HomeOf.isDirectoryAt {tree : FileTree} {directory : Path} {here : Location}
    (home : tree.HomeOf directory here) (rooted : tree.Rooted) :
    tree.isDirectoryAt here = true := by
  rw [HomeOf] at home
  split at home
  · rw [home]
    exact rooted.start
  · rcases find_eq_ok_iff.mp home with ⟨isOpen, _, taken, _⟩
    rw [FileTree.isDirectoryAt, taken]
    rfl

theorem HomeOf.differAt {before after : FileTree} {directory : Path} {here location : Location}
    (home : before.HomeOf directory here) (rooted : before.Rooted)
    (differ : DifferAt location before after) : after.HomeOf directory here := by
  have apart : here ≠ location := by
    rintro rfl
    exact differ.leafBefore.not_isDirectoryAt (home.isDirectoryAt rooted)
  rw [HomeOf] at home ⊢
  split at home
  · rename_i empty
    rw [if_pos empty, home, differ.start]
  · rename_i notEmpty
    rw [if_neg notEmpty]
    exact find_differAt differ home apart

theorem HomeOf.walkRoot_eq {tree : FileTree} {directory : Path} {here : Location}
    (home : tree.HomeOf directory here) {root : Option Location}
    (walked : tree.walkRoot directory = .ok root) : root = some here := by
  rw [walkRoot] at walked
  cases stands : tree.find false directory with
  | error cause =>
      rw [stands] at walked
      cases walked
  | ok place =>
      rcases place with ⟨location, node⟩
      rw [stands] at walked
      rcases find_eq_ok_iff.mp stands with ⟨isOpen, arrives, taken, allowed⟩
      have walkable := (place_eq_ok_iff.mp arrives).1
      rw [HomeOf, if_neg walkable.notEmpty] at home
      have found (noLink : ∀ target, node ≠ .link target) :
          tree.find true directory = .ok (location, node) := by
        have looks := (place_eq_ok_iff.mp arrives).2.target_of_entry fun target link =>
          noLink target (Option.some.inj (taken.symm.trans link))
        exact find_eq_ok_iff.mpr ⟨isOpen, place_eq_ok_iff.mpr ⟨walkable, looks⟩, taken, allowed⟩
      cases node with
      | directory =>
          have found := found fun _ => Node.noConfusion
          rw [home] at found
          cases found
          cases walked
          rfl
      | file content =>
          have found := found fun _ => Node.noConfusion
          rw [home] at found
          cases found
      | link target =>
          simp only [home] at walked
          cases walked
          rfl

def fileEntry? {α : Type} (entry : α × Node) : Option α :=
  match entry.2 with
  | .file _ => some entry.1
  | _ => none

theorem sublist_fileEntries {α : Type} (entries : List (α × Node)) :
    (entries.filterMap fileEntry?).Sublist (entries.map Prod.fst) := by
  induction entries with
  | nil => exact .slnil
  | cons entry rest induction =>
      rcases entry with ⟨name, node⟩
      cases node with
      | file content => exact induction.cons_cons name
      | directory => exact induction.cons name
      | link target => exact induction.cons name

namespace PlainDirectory

variable {directory : Path} {here : Location} {tree after : FileTree} {name : String}

/-! ## Where the paths of entries lead -/

theorem inside (plain : PlainDirectory directory here tree) : tree.isDirectoryAt here = true :=
  plain.home.isDirectoryAt plain.kept.rooted

theorem place_eq (plain : PlainDirectory directory here tree) (isName : IsName name)
    {purpose : Purpose} {arrival : Arrival}
    (arrives : tree.place purpose (directory.child name) = .ok arrival) :
    arrival = ⟨here ++ [name], false⟩ := by
  rcases place_entry isName arrives with ⟨there, home, last⟩
  obtain rfl : there = here := home.unique plain.home
  exact last (.inr (plain.noLink name))

theorem find_eq (plain : PlainDirectory directory here tree) (isName : IsName name)
    {location : Location} {node : Node}
    (found : tree.find true (directory.child name) = .ok (location, node)) :
    location = here ++ [name] ∧ tree.node? (here ++ [name]) = some node := by
  rcases find_eq_ok_iff.mp found with ⟨isOpen, arrives, taken, _⟩
  cases plain.place_eq isName arrives
  exact ⟨rfl, taken⟩

theorem writable_eq (plain : PlainDirectory directory here tree) (isName : IsName name)
    {location : Location} (writable : tree.writable (directory.child name) = .ok location) :
    location = here ++ [name] ∧ tree.LeafAt (here ++ [name]) := by
  rcases (writable_eq_ok_iff plain.kept.rooted).mp writable with ⟨arrives, leaf⟩
  cases plain.place_eq isName arrives
  exact ⟨rfl, leaf⟩

/-! ## Changes -/

/-- A change to a file leaves a directory without links, wherever the file stands. -/
theorem differAt (plain : PlainDirectory directory here tree) {location : Location}
    (differ : DifferAt location tree after) (kept : after.Kept) :
    PlainDirectory directory here after where
  kept := kept
  home := plain.home.differAt plain.kept.rooted differ
  noLink := by
    intro name target taken
    by_cases same : here ++ [name] = location
    · rw [same] at taken
      rcases differ.leafAfter _ taken with ⟨content, isFile⟩
      cases isFile
    · rw [differ.elsewhere _ same] at taken
      exact plain.noLink name target taken

theorem put (plain : PlainDirectory directory here tree) (isName : IsName name)
    (leaf : tree.LeafAt (here ++ [name])) (content : Bytes) :
    PlainDirectory directory here (tree.put (here ++ [name]) (.file content)) :=
  plain.differAt (leaf.differAt_put content) (plain.kept.put plain.inside isName leaf content)

theorem write_eq (plain : PlainDirectory directory here tree) (isName : IsName name)
    {content : Bytes} (written : tree.write (directory.child name) content = .ok after) :
    after = tree.put (here ++ [name]) (.file content) := by
  rcases writable_of_write written with ⟨location, writable, rfl⟩
  rw [(plain.writable_eq isName writable).1]

theorem copy_eq (plain : PlainDirectory directory here tree) (isName : IsName name) {source : Path}
    (copied : tree.copy source (directory.child name) = .ok after) :
    ∃ location held content, tree.find true source = .ok (location, .file held) ∧
      tree.writable (directory.child name) = .ok (here ++ [name]) ∧
      after = tree.put (here ++ [name]) (.file content) ∧
      (location ≠ here ++ [name] → content = held) := by
  rcases of_copy copied with ⟨location, held, between, content, found, emptied, reads, written⟩
  rcases writable_of_write emptied with ⟨opened, writable, rfl⟩
  rcases plain.writable_eq isName writable with ⟨rfl, leaf⟩
  have cleared := plain.put isName leaf []
  refine ⟨location, held, content, found, writable, ?_, fun apart => ?_⟩
  · rw [cleared.write_eq isName written, put_put]
  · have still := find_differAt (leaf.differAt_put []) found apart
    rcases read_eq_ok_iff.mp reads with ⟨place, left⟩
    rw [still] at left
    cases left
    rfl

theorem removeFile_eq (plain : PlainDirectory directory here tree) (isName : IsName name)
    (removed : tree.removeFile (directory.child name) = .ok after) :
    after = tree.erase (here ++ [name]) ∧ tree.LeafAt (here ++ [name]) := by
  rw [removeFile] at removed
  cases arrives : tree.place .naming (directory.child name) with
  | error cause =>
      rw [arrives] at removed
      cases removed
  | ok arrival =>
      cases plain.place_eq isName arrives
      rw [arrives] at removed
      simp only [Bind.bind, Except.bind, seen] at removed
      cases taken : tree.node? (here ++ [name]) with
      | none =>
          rw [taken] at removed
          cases removed
      | some node =>
          rw [taken] at removed
          cases node with
          | directory => cases removed
          | link target => exact absurd taken (plain.noLink name target)
          | file content =>
              refine ⟨by simpa using removed.symm, fun node stands => ⟨content, ?_⟩⟩
              rw [taken] at stands
              exact (Option.some.inj stands).symm

theorem erase (plain : PlainDirectory directory here tree) (leaf : tree.LeafAt (here ++ [name])) :
    PlainDirectory directory here (tree.erase (here ++ [name])) :=
  plain.differAt leaf.differAt_erase (plain.kept.erase plain.inside leaf)

/-! ## Listing -/

theorem listFiles_eq (plain : PlainDirectory directory here tree) {names : List String}
    (listed : Package.listFiles tree directory = .ok names) :
    names.Nodup ∧
      ∀ name, name ∈ names ↔ ∃ content, tree.node? (here ++ [name]) = some (.file content) := by
  have sorted : names = (tree.sortedChildren here).filterMap fileEntry? := by
    rw [Package.listFiles, regularFiles] at listed
    cases walked : tree.walkRoot directory with
    | error cause =>
        rw [walked] at listed
        cases listed
    | ok root =>
        rw [walked, plain.home.walkRoot_eq walked] at listed
        cases listed
        rfl
  have same : names.Perm ((tree.childrenOf here).filterMap fileEntry?) := by
    rw [sorted]
    exact (perm_sortedChildren tree here).filterMap _
  constructor
  · rw [same.nodup_iff]
    exact (nodup_childrenOf plain.kept.distinct here).sublist (sublist_fileEntries _)
  · intro name
    rw [same.mem_iff, List.mem_filterMap]
    constructor
    · rintro ⟨⟨other, node⟩, member, isFile⟩
      have taken := plain.kept.node?_of_mem (by simp) (mem_childrenOf.mp member)
      cases node with
      | directory => cases isFile
      | link target => cases isFile
      | file content =>
          cases isFile
          exact ⟨content, taken⟩
    · rintro ⟨content, taken⟩
      have member := mem_nodes_of_node? (by simp) taken
      exact ⟨(name, .file content), mem_childrenOf.mpr member, rfl⟩

theorem isName_of_mem_listFiles (plain : PlainDirectory directory here tree) {names : List String}
    (listed : Package.listFiles tree directory = .ok names) (member : name ∈ names) :
    IsName name := by
  rcases ((plain.listFiles_eq listed).2 name).mp member with ⟨content, taken⟩
  exact plain.kept.isName_of_node? taken name (by simp)

end PlainDirectory

instance (directory : Path) (here : Location) (tree : FileTree) :
    Decidable (PlainDirectory directory here tree) :=
  decidable_of_iff (tree.Kept ∧ tree.HomeOf directory here ∧
      ∀ entry ∈ tree.childrenOf here, isLink entry.2 = false) (by
    constructor
    · rintro ⟨kept, home, noLink⟩
      refine ⟨kept, home, fun name target taken => ?_⟩
      have member := mem_childrenOf.mpr (mem_nodes_of_node? (by simp) taken)
      exact Bool.noConfusion (noLink _ member)
    · rintro ⟨kept, home, noLink⟩
      refine ⟨kept, home, fun entry member => ?_⟩
      have taken := kept.node?_of_mem (by simp) (mem_childrenOf.mp member)
      cases kind : entry.2 with
      | file content => rfl
      | directory => rfl
      | link target => exact absurd (kind ▸ taken) (noLink _ _))

/-! ## Creating directories -/

structure AddsDirectories (before after : FileTree) : Prop where
  shrinks : Shrinks after before
  fresh : ∀ location node, after.node? location = some node →
    before.node? location = some node ∨ node = .directory

theorem AddsDirectories.refl (tree : FileTree) : AddsDirectories tree tree :=
  ⟨.refl tree, fun _ _ => .inl⟩

theorem AddsDirectories.trans {first second third : FileTree}
    (adds : AddsDirectories first second) (further : AddsDirectories second third) :
    AddsDirectories first third where
  shrinks := further.shrinks.trans adds.shrinks
  fresh location node taken := by
    rcases further.fresh location node taken with held | isDirectory
    · exact adds.fresh location node held
    · exact .inr isDirectory

theorem addsDirectories_createDirectory {before after : FileTree} {path : Path}
    (created : before.createDirectory path = .ok after) : AddsDirectories before after := by
  rw [createDirectory] at created
  cases arrives : before.place .naming path with
  | error cause =>
      rw [arrives] at created
      cases created
  | ok arrival =>
      rw [arrives] at created
      simp only [Bind.bind, Except.bind] at created
      cases taken : before.node? arrival.location with
      | some node =>
          rw [taken] at created
          cases created
      | none =>
          rw [taken] at created
          cases created
          have below : arrival.location ≠ [] := by
            intro top
            rw [top] at taken
            cases taken
          refine ⟨⟨rfl, fun location node held => ?_⟩, fun location node held => ?_⟩
          · have apart : location ≠ arrival.location := by
              rintro rfl
              rw [taken] at held
              cases held
            rw [node?_put_of_ne before _ apart, held]
          · by_cases same : location = arrival.location
            · rw [same, node?_put_self before _ below] at held
              exact .inr (Option.some.inj held).symm
            · rw [node?_put_of_ne before _ same] at held
              exact .inl held

theorem addsDirectories_createEach (tree : FileTree) (paths : List Path) :
    AddsDirectories tree (tree.createEach paths).1 := by
  induction paths generalizing tree with
  | nil => exact .refl tree
  | cons first rest induction =>
      rw [createEach]
      split
      · rename_i between created
        exact (addsDirectories_createDirectory created).trans (induction between)
      · split
        · exact induction tree
        · exact .refl tree

theorem addsDirectories_createDirectories (tree : FileTree) (path : Path) :
    AddsDirectories tree (tree.createDirectories path).1 := by
  rw [createDirectories]
  split
  · exact .refl tree
  · split
    · exact addsDirectories_createEach tree _
    · exact .refl tree

theorem PlainDirectory.addsDirectories {directory : Path} {here : Location}
    {before after : FileTree} (plain : PlainDirectory directory here before)
    (adds : AddsDirectories before after) (kept : after.Kept) :
    PlainDirectory directory here after where
  kept := kept
  home := by
    have home := plain.home
    rw [HomeOf] at home ⊢
    split at home
    · rename_i empty
      rw [if_pos empty, home, adds.shrinks.start]
    · rename_i notEmpty
      rw [if_neg notEmpty]
      exact adds.shrinks.find_eq home
  noLink := by
    intro name target taken
    rcases adds.fresh _ _ taken with held | isDirectory
    · exact plain.noLink name target held
    · cases isDirectory

end GameExport.FileTree
