import GameExport.Proofs.FileTree.Plain
import Mathlib.Data.List.Induction
import Mathlib.Data.List.Nodup

/-! # Everything below a directory

A listing goes down through the directories of a tree and follows no link. Main statement: the
listing of a directory gives each regular file that stands below it, by the way down to it, once.
-/

namespace GameExport.FileTree

variable {tree : FileTree} {here : Location}

/-! ## Ways down -/

theorem Rooted.isDirectoryAt_above (rooted : tree.Rooted) {names : List String} {node : Node}
    (below : names ≠ []) (taken : tree.node? (here ++ names) = some node) :
    tree.isDirectoryAt here = true := by
  induction names using List.reverseRecOn generalizing node with
  | nil => exact absurd rfl below
  | append_singleton names name induction =>
      rw [← List.append_assoc] at taken
      have parent := rooted.parents _ (mem_nodes_of_node? (by simp) taken)
      rw [List.dropLast_concat] at parent
      by_cases top : names = []
      · rwa [top, List.append_nil] at parent
      · exact induction top (by simpa [isDirectoryAt] using parent)

theorem Kept.mem_sortedChildren (kept : tree.Kept) {name : String} {node : Node} :
    (name, node) ∈ tree.sortedChildren here ↔ tree.node? (here ++ [name]) = some node := by
  rw [(perm_sortedChildren tree here).mem_iff, mem_childrenOf]
  exact ⟨kept.node?_of_mem (by simp), mem_nodes_of_node? (by simp)⟩

theorem nodup_sortedChildren (kept : tree.Kept) (here : Location) :
    ((tree.sortedChildren here).map Prod.fst).Nodup :=
  ((perm_sortedChildren tree here).map Prod.fst).nodup_iff.mpr
    (nodup_childrenOf kept.distinct here)

/-! ## Listing -/

def branch (tree : FileTree) (depth : Nat) (here : Location) (entry : String × Node) :
    List (List String × Node) :=
  ([entry.1], entry.2) :: match entry.2 with
    | .directory => (tree.below depth (here ++ [entry.1])).map fun (names, node) =>
        (entry.1 :: names, node)
    | _ => []

theorem below_succ (tree : FileTree) (depth : Nat) (here : Location) :
    tree.below (depth + 1) here = (tree.sortedChildren here).flatMap (tree.branch depth here) :=
  rfl

theorem mem_branch {depth : Nat} {entry : String × Node} {names : List String} {node : Node} :
    (names, node) ∈ tree.branch depth here entry ↔ ∃ rest, names = entry.1 :: rest ∧
      ((rest = [] ∧ node = entry.2) ∨
        (entry.2 = .directory ∧ (rest, node) ∈ tree.below depth (here ++ [entry.1]))) := by
  rcases entry with ⟨name, stands⟩
  rw [branch, List.mem_cons]
  cases stands with
  | directory =>
      constructor
      · rintro (first | further)
        · cases first
          exact ⟨[], rfl, .inl ⟨rfl, rfl⟩⟩
        · rcases List.mem_map.mp further with ⟨⟨rest, other⟩, member, same⟩
          cases same
          exact ⟨rest, rfl, .inr ⟨rfl, member⟩⟩
      · rintro ⟨rest, rfl, ⟨rfl, rfl⟩ | ⟨_, member⟩⟩
        · exact .inl rfl
        · exact .inr (List.mem_map.mpr ⟨_, member, rfl⟩)
  | file content => simp
  | link target => simp

theorem Kept.mem_below (kept : tree.Kept) {depth : Nat} {names : List String} {node : Node} :
    (names, node) ∈ tree.below depth here ↔
      names ≠ [] ∧ names.length ≤ depth ∧ tree.node? (here ++ names) = some node := by
  induction depth generalizing here names with
  | zero =>
      rw [below]
      constructor
      · exact nofun
      · rintro ⟨notEmpty, short, _⟩
        exact absurd (List.length_eq_zero_iff.mp (Nat.le_zero.mp short)) notEmpty
  | succ depth induction =>
      rw [below_succ, List.mem_flatMap]
      constructor
      · rintro ⟨⟨name, stands⟩, child, member⟩
        have taken := kept.mem_sortedChildren.mp child
        rcases mem_branch.mp member with ⟨rest, rfl, ⟨rfl, rfl⟩ | ⟨_, member⟩⟩
        · exact ⟨by simp, by simp, taken⟩
        · rcases induction.mp member with ⟨_, short, taken⟩
          rw [List.append_assoc] at taken
          exact ⟨by simp, by simpa using short, taken⟩
      · rintro ⟨notEmpty, short, taken⟩
        cases names with
        | nil => exact absurd rfl notEmpty
        | cons name rest =>
            by_cases last : rest = []
            · subst last
              exact ⟨(name, node), kept.mem_sortedChildren.mpr taken,
                mem_branch.mpr ⟨[], rfl, .inl ⟨rfl, rfl⟩⟩⟩
            · have split : here ++ name :: rest = here ++ [name] ++ rest := by simp
              rw [split] at taken
              have inside := kept.rooted.isDirectoryAt_above last taken
              have stands : tree.node? (here ++ [name]) = some .directory := by
                simpa [isDirectoryAt] using inside
              have further := induction.mpr ⟨last, by simpa using short, taken⟩
              exact ⟨(name, .directory), kept.mem_sortedChildren.mpr stands,
                mem_branch.mpr ⟨rest, rfl, .inr ⟨rfl, further⟩⟩⟩

theorem Kept.nodup_below (kept : tree.Kept) (depth : Nat) (here : Location) :
    ((tree.below depth here).map Prod.fst).Nodup := by
  induction depth generalizing here with
  | zero => exact List.nodup_nil
  | succ depth induction =>
      rw [below_succ, List.map_flatMap, List.nodup_flatMap]
      constructor
      · rintro ⟨name, stands⟩ _
        cases stands with
        | directory =>
            rw [branch, List.map_cons, List.map_map, List.nodup_cons]
            constructor
            · intro again
              rcases List.mem_map.mp again with ⟨⟨names, node⟩, member, same⟩
              exact (kept.mem_below.mp member).1 (List.cons.inj same).2
            · have apart := (induction (here ++ [name])).map (List.cons_injective (a := name))
              rwa [List.map_map] at apart
        | file content => exact List.nodup_singleton _
        | link target => exact List.nodup_singleton _
      · refine (List.pairwise_map.mp (nodup_sortedChildren kept here)).imp ?_
        intro first second different names inFirst inSecond
        rcases List.mem_map.mp inFirst with ⟨⟨_, node⟩, member, rfl⟩
        rcases List.mem_map.mp inSecond with ⟨⟨_, other⟩, again, same⟩
        rcases mem_branch.mp member with ⟨rest, rfl, _⟩
        rcases mem_branch.mp again with ⟨others, rfl, _⟩
        exact different (List.cons.inj same).1.symm

/-! ## Regular files -/

theorem le_foldl_max {α : Type} (measure : α → Nat) (items : List α) (start : Nat) :
    start ≤ items.foldl (fun longest item => max longest (measure item)) start ∧
      ∀ item ∈ items,
        measure item ≤ items.foldl (fun longest item => max longest (measure item)) start := by
  induction items generalizing start with
  | nil => exact ⟨Nat.le_refl start, nofun⟩
  | cons first rest induction =>
      rcases induction (max start (measure first)) with ⟨most, others⟩
      refine ⟨Nat.le_trans (Nat.le_max_left _ _) most, fun item member => ?_⟩
      rcases List.mem_cons.mp member with rfl | member
      · exact Nat.le_trans (Nat.le_max_right _ _) most
      · exact others item member

theorem Kept.mem_allBelow (kept : tree.Kept) {names : List String} {node : Node} :
    (names, node) ∈ tree.allBelow here ↔
      names ≠ [] ∧ tree.node? (here ++ names) = some node := by
  rw [allBelow, kept.mem_below]
  constructor
  · rintro ⟨notEmpty, _, taken⟩
    exact ⟨notEmpty, taken⟩
  · rintro ⟨notEmpty, taken⟩
    have member := mem_nodes_of_node? (by simp [notEmpty]) taken
    have deep := (le_foldl_max (fun entry : Location × Node => entry.1.length) tree.nodes 0).2 _
      member
    rw [List.length_append] at deep
    exact ⟨notEmpty, Nat.le_trans (Nat.le_add_left _ _) deep, taken⟩

/-- The regular files below a directory are listed, each once. -/
theorem Kept.regularFilesBelow_eq (kept : tree.Kept) {directory : Path}
    (home : tree.HomeOf directory here) {listed : List (List String)}
    (lists : tree.regularFilesBelow directory = .ok listed) :
    listed.Nodup ∧ ∀ names, names ∈ listed ↔
      names ≠ [] ∧ ∃ content, tree.node? (here ++ names) = some (.file content) := by
  have files : listed = (tree.allBelow here).filterMap fileEntry? := by
    rw [regularFilesBelow] at lists
    cases walked : tree.walkRoot directory with
    | error cause =>
        rw [walked] at lists
        cases lists
    | ok root =>
        rw [walked, home.walkRoot_eq walked] at lists
        cases lists
        rfl
  rw [files]
  constructor
  · exact (kept.nodup_below _ here).sublist (sublist_fileEntries _)
  · intro names
    rw [List.mem_filterMap]
    constructor
    · rintro ⟨⟨others, node⟩, member, isFile⟩
      rcases kept.mem_allBelow.mp member with ⟨notEmpty, taken⟩
      cases node with
      | directory => cases isFile
      | link target => cases isFile
      | file content =>
          cases isFile
          exact ⟨notEmpty, content, taken⟩
    · rintro ⟨notEmpty, content, taken⟩
      exact ⟨(names, .file content), kept.mem_allBelow.mpr ⟨notEmpty, taken⟩, rfl⟩

end GameExport.FileTree
