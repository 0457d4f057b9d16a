import GameExport.Export.Resources
import GameExport.Proofs.FileTree.Directory

/-! # Emptying a directory

What stands in a directory is removed entry by entry. Main statement: a tree from which every entry
of a directory has been removed has nothing in that directory.
-/

namespace GameExport.FileTree

/-- A tree from which nothing but locations have been taken away. -/
structure Shrinks (before after : FileTree) : Prop where
  start : after.start = before.start
  fewer : ∀ location node, after.node? location = some node → before.node? location = some node

theorem Shrinks.refl (tree : FileTree) : Shrinks tree tree := ⟨rfl, fun _ _ => id⟩

theorem Shrinks.trans {first second third : FileTree} (shrinks : Shrinks first second)
    (further : Shrinks second third) : Shrinks first third where
  start := further.start.trans shrinks.start
  fewer location node taken := shrinks.fewer location node (further.fewer location node taken)

theorem shrinks_filter (tree : FileTree) (keeps : Location → Bool) :
    Shrinks tree { tree with nodes := tree.nodes.filter fun entry => keeps entry.1 } where
  start := rfl
  fewer location node taken := by
    by_cases top : location = []
    · rw [node?, if_pos top] at taken ⊢
      exact taken
    · rw [node?, if_neg top, lookup_filter] at taken
      rw [node?, if_neg top]
      split at taken
      · exact taken
      · cases taken

theorem Shrinks.isDirectoryAt {before after : FileTree} (shrinks : Shrinks before after)
    {here : Location} (inside : after.isDirectoryAt here = true) :
    before.isDirectoryAt here = true := by
  have taken : after.node? here = some .directory := by simpa [FileTree.isDirectoryAt] using inside
  rw [FileTree.isDirectoryAt, shrinks.fewer here _ taken]
  rfl

theorem Walks.of_shrinks {before after : FileTree} (shrinks : Shrinks before after)
    {purpose : Purpose} {links : Nat} {here : Location} {names : List String} {isOpen : Bool}
    {arrival : Arrival} (walks : Walks after purpose links here names isOpen arrival)
    (left : after.node? arrival.location ≠ none) :
    Walks before purpose links here names isOpen arrival := by
  induction walks with
  | done => exact .done
  | stay inside next induction => exact .stay (shrinks.isDirectoryAt inside) (induction left)
  | up inside next induction => exact .up (shrinks.isDirectoryAt inside) (induction left)
  | missing inside named free => exact absurd free left
  | atLink inside named taken stops =>
      exact .atLink (shrinks.isDirectoryAt inside) named (shrinks.fewer _ _ taken) stops
  | along inside named taken follows next induction =>
      exact .along (shrinks.isDirectoryAt inside) named (shrinks.fewer _ _ taken) follows
        (induction left)
  | enter inside named taken noLink next induction =>
      exact .enter (shrinks.isDirectoryAt inside) named (shrinks.fewer _ _ taken) noLink
        (induction left)

theorem Shrinks.place_eq {before after : FileTree} (shrinks : Shrinks before after)
    {purpose : Purpose} {path : Path} {arrival : Arrival}
    (arrives : after.place purpose path = .ok arrival)
    (left : after.node? arrival.location ≠ none) : before.place purpose path = .ok arrival := by
  obtain ⟨walkable, walks⟩ := place_eq_ok_iff.mp arrives
  have sameOrigin : before.origin path = after.origin path := by
    rw [origin, origin, shrinks.start]
  have walks := walks.of_shrinks shrinks left
  rw [← sameOrigin] at walks
  exact place_eq_ok_iff.mpr ⟨walkable, walks⟩

theorem Shrinks.find_eq {before after : FileTree} (shrinks : Shrinks before after) {follow : Bool}
    {path : Path} {location : Location} {node : Node}
    (found : after.find follow path = .ok (location, node)) :
    before.find follow path = .ok (location, node) := by
  rcases find_eq_ok_iff.mp found with ⟨isOpen, arrives, taken, allowed⟩
  exact find_eq_ok_iff.mpr ⟨isOpen, shrinks.place_eq arrives (by simp [taken]),
    shrinks.fewer _ _ taken, allowed⟩

/-! ## Removing entries -/

theorem node?_eraseBelow_self (tree : FileTree) {location : Location} (below : location ≠ []) :
    (tree.eraseBelow location).node? location = none := by
  have self : location.isPrefixOf location = true :=
    List.isPrefixOf_iff_prefix.mpr (List.prefix_refl location)
  rw [node?, if_neg below, eraseBelow, lookup_filter fun other => !location.isPrefixOf other, self]
  rfl

theorem removeEntry_eq {tree after : FileTree} {directory : Path}
    (notEmpty : directory.text ≠ "") {name : String} (isName : IsName name)
    (removed : removeEntry (directory.child name) tree = .ok after) :
    ∃ here, tree.find true directory = .ok (here, .directory) ∧
      after.node? (here ++ [name]) = none := by
  rw [removeEntry] at removed
  split at removed
  · rw [removeAll] at removed
    cases stands : tree.find false (directory.child name) with
    | error cause =>
        rw [stands] at removed
        cases removed
    | ok place =>
        rcases place with ⟨location, node⟩
        rw [stands] at removed
        cases removed
        rcases find_eq_ok_iff.mp stands with ⟨isOpen, arrives, _⟩
        rcases place_child notEmpty isName arrives with ⟨here, found, there⟩
        cases there (.inl rfl)
        exact ⟨here, found, node?_eraseBelow_self tree (by simp)⟩
  · rw [removeFile] at removed
    cases arrives : tree.place .naming (directory.child name) with
    | error cause =>
        rw [arrives] at removed
        cases removed
    | ok arrival =>
        rcases place_child notEmpty isName arrives with ⟨here, found, there⟩
        cases there (.inl rfl)
        refine ⟨here, found, ?_⟩
        rw [arrives] at removed
        simp only [Bind.bind, Except.bind, seen] at removed
        cases taken : tree.node? (here ++ [name]) with
        | none =>
            rw [taken] at removed
            cases removed
        | some node =>
            rw [taken] at removed
            cases node <;> simp at removed
            · rw [← removed]
              exact node?_erase_self tree (by simp)
            · rw [← removed]
              exact node?_erase_self tree (by simp)

theorem shrinks_removeEntry {tree after : FileTree} {path : Path}
    (removed : removeEntry path tree = .ok after) : Shrinks tree after := by
  rw [removeEntry] at removed
  split at removed
  · rw [removeAll] at removed
    cases stands : tree.find false path with
    | error cause =>
        rw [stands] at removed
        cases removed
    | ok place =>
        rw [stands] at removed
        cases removed
        exact shrinks_filter tree fun other => !place.1.isPrefixOf other
  · rw [removeFile] at removed
    cases arrives : tree.place .naming path with
    | error cause =>
        rw [arrives] at removed
        cases removed
    | ok arrival =>
        rw [arrives] at removed
        simp only [Bind.bind, Except.bind] at removed
        cases looked : tree.seen arrival with
        | error cause =>
            rw [looked] at removed
            cases removed
        | ok place =>
            rcases place with ⟨location, node⟩
            rw [looked] at removed
            cases node <;> simp at removed
            · rw [← removed]
              exact shrinks_filter tree fun other => other != location
            · rw [← removed]
              exact shrinks_filter tree fun other => other != location

/-- No name holds anything in the directory that a path leads to. -/
def Emptied (directory : Path) (tree : FileTree) : Prop :=
  ∀ here node, tree.find true directory = .ok (here, node) →
    ∀ name, IsName name → tree.node? (here ++ [name]) = none

/-- A tree from which entries of a directory have been removed. -/
structure Removed (before : FileTree) (here : Location) (entries : List (String × Node))
    (after : FileTree) : Prop where
  shrinks : Shrinks before after
  gone : ∀ entry ∈ entries, IsName entry.1 → after.node? (here ++ [entry.1]) = none

theorem Removed.step {before tree after : FileTree} {directory : Path}
    (notEmpty : directory.text ≠ "") {here : Location} {node : Node}
    (found : before.find true directory = .ok (here, node)) {done : List (String × Node)}
    (removed : Removed before here done tree) {entry : String × Node}
    (next : removeEntry (directory.child entry.1) tree = .ok after) :
    Removed before here (done ++ [entry]) after where
  shrinks := removed.shrinks.trans (shrinks_removeEntry next)
  gone := by
    intro other member isName
    rcases List.mem_append.mp member with earlier | last
    · have free := removed.gone other earlier isName
      have fewer := (shrinks_removeEntry next).fewer (here ++ [other.1])
      rw [free] at fewer
      exact Option.eq_none_iff_forall_ne_some.mpr fun node taken => nomatch fewer node taken
    · rcases List.mem_singleton.mp last with rfl
      rcases removeEntry_eq notEmpty isName next with ⟨there, foundThere, free⟩
      have same := removed.shrinks.find_eq foundThere
      rw [found] at same
      cases same
      exact free

/-- Once all that stood in a directory has been removed, the directory is empty. -/
theorem Removed.emptied {before after : FileTree} {directory : Path} {here : Location}
    {node : Node} (found : before.find true directory = .ok (here, node))
    (removed : Removed before here (before.sortedChildren here) after) :
    Emptied directory after := by
  intro there other leads name isName
  have same := removed.shrinks.find_eq leads
  rw [found] at same
  cases same
  refine Option.eq_none_iff_forall_ne_some.mpr fun left taken => ?_
  have old := removed.shrinks.fewer _ _ taken
  have member := mem_childrenOf.mpr (mem_nodes_of_node? (by simp) old)
  have listed := (perm_sortedChildren before here).mem_iff.mpr member
  rw [removed.gone _ listed isName] at taken
  cases taken

end GameExport.FileTree
