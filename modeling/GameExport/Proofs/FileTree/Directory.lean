import GameExport.FileTree.Listing
import GameExport.Proofs.FileTree.Child

/-! # What stands in a directory

Trees as a system keeps them, and how they are listed. Main statements: writing and removing a
file leaves a tree of that kind, and a directory is listed with the name of every file that stands
in it, each once.
-/

namespace GameExport.FileTree

/-! ## Taking away -/

theorem lookup_filter (keeps : Location → Bool) (nodes : List (Location × Node))
    (sought : Location) :
    (nodes.filter fun entry => keeps entry.1).lookup sought =
      if keeps sought then nodes.lookup sought else none := by
  induction nodes with
  | nil => simp
  | cons entry rest induction =>
      rcases entry with ⟨other, old⟩
      rw [List.filter_cons, List.lookup_cons]
      by_cases same : sought = other
      · subst same
        cases kept : keeps sought with
        | true => simp
        | false => simpa [kept] using induction
      · have different : (sought == other) = false := by simpa using same
        rw [different]
        cases keeps other with
        | true => simpa [List.lookup_cons, different] using induction
        | false => simpa using induction

theorem node?_erase_self (tree : FileTree) {location : Location} (below : location ≠ []) :
    (tree.erase location).node? location = none := by
  rw [node?, if_neg below, erase]
  rw [lookup_filter fun other => other != location]
  simp

theorem node?_erase_of_ne (tree : FileTree) {location sought : Location}
    (different : sought ≠ location) :
    (tree.erase location).node? sought = tree.node? sought := by
  rw [node?, node?, erase, lookup_filter fun other => other != location]
  simp [different]

theorem LeafAt.differAt_erase {tree : FileTree} {location : Location}
    (leaf : tree.LeafAt location) : DifferAt location tree (tree.erase location) where
  start := rfl
  elsewhere _ different := node?_erase_of_ne tree different
  leafBefore := leaf
  leafAfter node taken := by
    rw [node?_erase_self tree leaf.ne_nil] at taken
    cases taken

/-! ## Trees as a system keeps them -/

/-- A tree as a system keeps it: everything stands once, by names, in a directory. -/
structure Kept (tree : FileTree) : Prop where
  rooted : tree.Rooted
  distinct : (tree.nodes.map Prod.fst).Nodup
  named : ∀ entry ∈ tree.nodes, ∀ name ∈ entry.1, IsName name

instance (tree : FileTree) : Decidable tree.Kept :=
  decidable_of_iff (tree.Rooted ∧ (tree.nodes.map Prod.fst).Nodup ∧
      ∀ entry ∈ tree.nodes, ∀ name ∈ entry.1, IsName name)
    ⟨fun holds => ⟨holds.1, holds.2.1, holds.2.2⟩,
      fun kept => ⟨kept.rooted, kept.distinct, kept.named⟩⟩

theorem mem_nodes_of_node? {tree : FileTree} {location : Location} {node : Node}
    (below : location ≠ []) (taken : tree.node? location = some node) :
    (location, node) ∈ tree.nodes := by
  rw [node?, if_neg below] at taken
  rcases List.lookup_eq_some_iff.mp taken with ⟨before, after, same, _⟩
  rw [same]
  exact List.mem_append_right _ List.mem_cons_self

theorem Kept.isName_of_node? {tree : FileTree} (kept : tree.Kept) {location : Location}
    {node : Node} (taken : tree.node? location = some node) : ∀ name ∈ location, IsName name := by
  by_cases below : location = []
  · rw [below]
    intro name member
    cases member
  · exact kept.named _ (mem_nodes_of_node? below taken)

theorem Rooted.differAt {location : Location} {before after : FileTree} (rooted : before.Rooted)
    (differ : DifferAt location before after)
    (known : ∀ entry ∈ after.nodes, entry.1 = location ∨ ∃ node, (entry.1, node) ∈ before.nodes)
    (parent : before.isDirectoryAt location.dropLast = true) : after.Rooted where
  start := by
    rw [differ.start]
    exact differ.isDirectoryAt rooted.start
  parents := by
    intro entry member
    apply differ.isDirectoryAt
    rcases known entry member with same | ⟨node, old⟩
    · rw [same]
      exact parent
    · exact rooted.parents (entry.1, node) old

theorem mem_putNode {location : Location} {node : Node} {nodes : List (Location × Node)}
    {entry : Location × Node} (member : entry ∈ putNode location node nodes) :
    entry = (location, node) ∨ entry ∈ nodes := by
  induction nodes with
  | nil => exact .inl (List.mem_singleton.mp member)
  | cons first rest induction =>
      rcases first with ⟨other, old⟩
      rw [putNode] at member
      split at member
      · rcases List.mem_cons.mp member with same | old
        · exact .inl same
        · exact .inr (List.mem_cons_of_mem _ old)
      · rcases List.mem_cons.mp member with same | further
        · exact .inr (same ▸ List.mem_cons_self)
        · rcases induction further with same | old
          · exact .inl same
          · exact .inr (List.mem_cons_of_mem _ old)

theorem nodup_putNode {location : Location} {node : Node} {nodes : List (Location × Node)}
    (distinct : (nodes.map Prod.fst).Nodup) :
    ((putNode location node nodes).map Prod.fst).Nodup := by
  induction nodes with
  | nil => simp [putNode]
  | cons first rest induction =>
      rcases first with ⟨other, old⟩
      rcases List.nodup_cons.mp distinct with ⟨absent, distinct⟩
      rw [putNode]
      split
      · rename_i same
        rw [← same]
        exact List.nodup_cons.mpr ⟨absent, distinct⟩
      · rename_i different
        refine List.nodup_cons.mpr ⟨?_, induction distinct⟩
        intro again
        rcases List.mem_map.mp again with ⟨entry, member, same⟩
        rcases mem_putNode member with new | old
        · rw [new] at same
          exact different same.symm
        · exact absent (List.mem_map.mpr ⟨entry, old, same⟩)

theorem Kept.put {tree : FileTree} (kept : tree.Kept) {here : Location}
    (inside : tree.isDirectoryAt here = true) {name : String} (isName : IsName name)
    (leaf : tree.LeafAt (here ++ [name])) (content : Bytes) :
    (tree.put (here ++ [name]) (.file content)).Kept where
  rooted := by
    apply kept.rooted.differAt (leaf.differAt_put content)
    · intro entry member
      rcases mem_putNode member with rfl | old
      · exact .inl rfl
      · exact .inr ⟨entry.2, old⟩
    · rw [List.dropLast_concat]
      exact inside
  distinct := nodup_putNode kept.distinct
  named := by
    intro entry member other among
    rcases mem_putNode member with rfl | old
    · rcases List.mem_append.mp among with above | last
      · have taken : tree.node? here = some .directory := by simpa [isDirectoryAt] using inside
        exact kept.isName_of_node? taken other above
      · rw [List.mem_singleton.mp last]
        exact isName
    · exact kept.named entry old other among

theorem Kept.erase {tree : FileTree} (kept : tree.Kept) {here : Location}
    (inside : tree.isDirectoryAt here = true) {name : String}
    (leaf : tree.LeafAt (here ++ [name])) : (tree.erase (here ++ [name])).Kept where
  rooted := by
    apply kept.rooted.differAt leaf.differAt_erase
    · intro entry member
      exact .inr ⟨entry.2, (List.mem_filter.mp member).1⟩
    · rw [List.dropLast_concat]
      exact inside
  distinct := kept.distinct.sublist (List.filter_sublist.map Prod.fst)
  named := fun entry member => kept.named entry (List.mem_filter.mp member).1

theorem Kept.node?_of_mem {tree : FileTree} (kept : tree.Kept) {location : Location} {node : Node}
    (below : location ≠ []) (member : (location, node) ∈ tree.nodes) :
    tree.node? location = some node := by
  rw [node?, if_neg below]
  rcases List.append_of_mem member with ⟨before, after, same⟩
  refine List.lookup_eq_some_iff.mpr ⟨before, after, same, ?_⟩
  intro entry earlier
  have distinct := kept.distinct
  rw [same, List.map_append, List.map_cons] at distinct
  have apart := (List.nodup_append.mp distinct).2.2 entry.1 (List.mem_map_of_mem earlier) location
    List.mem_cons_self
  simpa using Ne.symm apart

/-! ## Listing -/

theorem perm_insertByName (entry : String × Node) (entries : List (String × Node)) :
    (insertByName entry entries).Perm (entry :: entries) := by
  induction entries with
  | nil => rfl
  | cons other rest induction =>
      rw [insertByName]
      split
      · rfl
      · exact (induction.cons other).trans (.swap entry other rest)

theorem perm_sortedChildren (tree : FileTree) (location : Location) :
    (tree.sortedChildren location).Perm (tree.childrenOf location) := by
  rw [sortedChildren]
  induction tree.childrenOf location with
  | nil => rfl
  | cons entry rest induction =>
      rw [List.foldr_cons]
      exact (perm_insertByName entry _).trans (induction.cons entry)

theorem mem_childrenOf {tree : FileTree} {here : Location} {name : String} {node : Node} :
    (name, node) ∈ tree.childrenOf here ↔ (here ++ [name], node) ∈ tree.nodes := by
  rw [childrenOf, List.mem_filterMap]
  constructor
  · rintro ⟨⟨location, other⟩, member, same⟩
    dsimp only at same
    split at same
    · rename_i last ends
      rcases List.getLast?_eq_some_iff.mp ends with ⟨parent, rfl⟩
      rw [List.dropLast_concat] at same
      split at same
      · rename_i isHere
        cases same
        rw [← isHere]
        exact member
      · cases same
    · cases same
  · intro member
    exact ⟨(here ++ [name], node), member, by simp⟩

theorem node?_eq_none_of_childrenOf {tree : FileTree} {here : Location}
    (nothing : tree.childrenOf here = []) (name : String) :
    tree.node? (here ++ [name]) = none := by
  refine Option.eq_none_iff_forall_ne_some.mpr fun node taken => ?_
  have member := mem_childrenOf.mpr (mem_nodes_of_node? (by simp) taken)
  rw [nothing] at member
  cases member

theorem nodup_childrenOf {tree : FileTree} (distinct : (tree.nodes.map Prod.fst).Nodup)
    (here : Location) : ((tree.childrenOf here).map Prod.fst).Nodup := by
  have apart : (tree.childrenOf here).map (fun entry => here ++ [entry.1]) =
      (tree.nodes.map Prod.fst).filter fun location =>
        location.getLast?.isSome && location.dropLast == here := by
    rw [childrenOf]
    induction tree.nodes with
    | nil => rfl
    | cons entry rest induction =>
        rcases entry with ⟨location, node⟩
        rw [List.filterMap_cons, List.map_cons, List.filter_cons]
        cases ends : location.getLast? with
        | none => simpa [ends] using induction
        | some last =>
            rcases List.getLast?_eq_some_iff.mp ends with ⟨parent, rfl⟩
            by_cases isHere : parent = here
            · simpa [isHere] using induction
            · simpa [isHere] using induction
  have nodup : ((tree.childrenOf here).map fun entry => here ++ [entry.1]).Nodup := by
    rw [apart]
    exact distinct.filter _
  have composed : ((tree.childrenOf here).map Prod.fst).map (fun name => here ++ [name]) =
      (tree.childrenOf here).map fun entry => here ++ [entry.1] := by
    rw [List.map_map]
    rfl
  rw [← composed] at nodup
  exact List.Pairwise.of_map _ (fun _ _ apart same => apart (by rw [same])) nodup

end GameExport.FileTree
