import GameExport.FileTree.Operations

/-! # Successful walks

A walk that succeeds, as a derivation with one rule for each kind of step. What is true of walks is
shown by induction on the derivation. Main statements: a change to a file that leaves the rest of
the tree alone leaves every successful walk as it is, and a walk that opens a file to write it
arrives where a walk that looks at it arrives.
-/

namespace GameExport.FileTree

structure Named (purpose : Purpose) (name : String) (rest : List String) (isOpen : Bool) :
    Prop where
  notHere : name ≠ "."
  notParent : name ≠ ".."
  allowed : ¬ (purpose = .opening ∧ rest = [] ∧ isOpen = true)
  short : ¬ nameLimit < name.utf8ByteSize

/-- Walks that succeed, and where they arrive. -/
inductive Walks (tree : FileTree) (purpose : Purpose) :
    (links : Nat) → Location → List String → Bool → Arrival → Prop
  | done {links here isOpen} : Walks tree purpose links here [] isOpen ⟨here, isOpen⟩
  | stay {links here rest isOpen arrival} (inside : tree.isDirectoryAt here = true)
      (next : Walks tree purpose links here rest isOpen arrival) :
      Walks tree purpose links here ("." :: rest) isOpen arrival
  | up {links here rest isOpen arrival} (inside : tree.isDirectoryAt here = true)
      (next : Walks tree purpose links here.dropLast rest isOpen arrival) :
      Walks tree purpose links here (".." :: rest) isOpen arrival
  | missing {links here name isOpen} (inside : tree.isDirectoryAt here = true)
      (named : Named purpose name [] isOpen) (free : tree.node? (here ++ [name]) = none) :
      Walks tree purpose links here [name] isOpen ⟨here ++ [name], isOpen⟩
  | atLink {links here name isOpen target} (inside : tree.isDirectoryAt here = true)
      (named : Named purpose name [] isOpen)
      (taken : tree.node? (here ++ [name]) = some (.link target))
      (stops : purpose.follows isOpen = false) :
      Walks tree purpose links here [name] isOpen ⟨here ++ [name], isOpen⟩
  | along {links here name rest isOpen target arrival} (inside : tree.isDirectoryAt here = true)
      (named : Named purpose name rest isOpen)
      (taken : tree.node? (here ++ [name]) = some (.link target))
      (follows : ¬ (rest = [] ∧ purpose.follows isOpen = false))
      (next : Walks tree purpose links (if target.isAbsolute then [] else here)
        (steps target ++ rest) (isOpen || (rest.isEmpty && endsOpen target)) arrival) :
      Walks tree purpose (links + 1) here (name :: rest) isOpen arrival
  | enter {links here name rest isOpen node arrival} (inside : tree.isDirectoryAt here = true)
      (named : Named purpose name rest isOpen)
      (taken : tree.node? (here ++ [name]) = some node) (noLink : ∀ target, node ≠ .link target)
      (next : Walks tree purpose links (here ++ [name]) rest isOpen arrival) :
      Walks tree purpose links here (name :: rest) isOpen arrival

private def onward (tree : FileTree) (purpose : Purpose) (links : Nat) :
    Location → List String → Bool → Except FileError Arrival :=
  match links with
  | 0 => fun _ _ _ => .error .tooManyLinks
  | links + 1 => tree.walk purpose links

private theorem walk_eq_walkAlong (tree : FileTree) (purpose : Purpose) (links : Nat) :
    tree.walk purpose links = tree.walkAlong purpose (onward tree purpose links) := by
  cases links with
  | zero => rw [walk_zero, onward]
  | succ links => rw [walk_succ, onward]

private theorem walks_of_walkAlong {tree : FileTree} {purpose : Purpose} {links : Nat}
    (further : ∀ here names isOpen arrival, onward tree purpose links here names isOpen =
      .ok arrival → ∃ fewer, links = fewer + 1 ∧ Walks tree purpose fewer here names isOpen arrival)
    {here : Location} {names : List String} {isOpen : Bool} {arrival : Arrival}
    (arrives : tree.walkAlong purpose (onward tree purpose links) here names isOpen = .ok arrival) :
    Walks tree purpose links here names isOpen arrival := by
  -- Only following a link uses up a level; `further` is what the levels below give.
  induction names generalizing here with
  | nil =>
      rw [walkAlong] at arrives
      cases arrives
      exact .done
  | cons name rest induction =>
      rw [walkAlong] at arrives
      split at arrives
      · cases arrives
      rename_i inside
      have inside : tree.isDirectoryAt here = true := by simpa using inside
      split at arrives
      · rename_i isHere
        subst isHere
        exact .stay inside (induction arrives)
      rename_i notHere
      split at arrives
      · rename_i isParent
        subst isParent
        exact .up inside (induction arrives)
      rename_i notParent
      split at arrives
      · cases arrives
      rename_i allowed
      split at arrives
      · cases arrives
      rename_i short
      have named : Named purpose name rest isOpen := ⟨notHere, notParent, allowed, short⟩
      split at arrives
      · rename_i free
        split at arrives
        · rename_i last
          subst last
          cases arrives
          exact .missing inside named free
        · cases arrives
      · rename_i target taken
        split at arrives
        · rename_i stops
          rcases stops with ⟨rfl, stops⟩
          cases arrives
          exact .atLink inside named taken (by simpa using stops)
        · rename_i follows
          rcases further _ _ _ _ arrives with ⟨fewer, rfl, walks⟩
          exact .along inside named taken (by simpa using follows) walks
      · rename_i node noLink taken
        exact .enter inside named taken (fun target same => noLink target same) (induction arrives)

theorem walks_of_walk {tree : FileTree} {purpose : Purpose} {links : Nat} {here : Location}
    {names : List String} {isOpen : Bool} {arrival : Arrival}
    (arrives : walk tree purpose links here names isOpen = .ok arrival) :
    Walks tree purpose links here names isOpen arrival := by
  induction links generalizing here names isOpen arrival with
  | zero =>
      rw [walk_eq_walkAlong] at arrives
      apply walks_of_walkAlong _ arrives
      intro _ _ _ _ wrong
      cases wrong
  | succ links induction =>
      rw [walk_eq_walkAlong] at arrives
      apply walks_of_walkAlong _ arrives
      intro _ _ _ _ arrives
      exact ⟨links, rfl, induction arrives⟩

theorem Walks.walk_eq {tree : FileTree} {purpose : Purpose} {links : Nat} {here : Location}
    {names : List String} {isOpen : Bool} {arrival : Arrival}
    (walks : Walks tree purpose links here names isOpen arrival) :
    walk tree purpose links here names isOpen = .ok arrival := by
  induction walks with
  | done => rw [walk_eq_walkAlong, walkAlong]
  | stay inside next induction =>
      rw [walk_eq_walkAlong] at induction ⊢
      simp [walkAlong, inside, induction]
  | up inside next induction =>
      rw [walk_eq_walkAlong] at induction ⊢
      simp [walkAlong, inside, induction]
  | missing inside named free =>
      rw [walk_eq_walkAlong]
      simp [walkAlong, inside, named.notHere, named.notParent, named.short, free]
      simpa using named.allowed
  | atLink inside named taken stops =>
      rw [walk_eq_walkAlong]
      simp [walkAlong, inside, named.notHere, named.notParent, named.short, taken, stops]
      simpa using named.allowed
  | along inside named taken follows next induction =>
      rw [walk_eq_walkAlong, walkAlong]
      simp only [inside, named.notHere, named.notParent, named.short, taken, named.allowed]
      simp [follows, onward, induction]
  | enter inside named taken noLink next induction =>
      rename_i links here name rest isOpen node arrival
      rw [walk_eq_walkAlong] at induction ⊢
      rw [walkAlong]
      simp only [inside, named.notHere, named.notParent, named.short, taken, named.allowed]
      cases node with
      | link target => exact absurd rfl (noLink target)
      | file content => simpa using induction
      | directory => simpa using induction

theorem walk_eq_ok_iff {tree : FileTree} {purpose : Purpose} {links : Nat} {here : Location}
    {names : List String} {isOpen : Bool} {arrival : Arrival} :
    walk tree purpose links here names isOpen = .ok arrival ↔
      Walks tree purpose links here names isOpen arrival :=
  ⟨walks_of_walk, Walks.walk_eq⟩

/-! ## Changing a file -/

def LeafAt (tree : FileTree) (location : Location) : Prop :=
  ∀ node ∈ tree.node? location, ∃ content, node = .file content

/-- Two trees that differ at one location only, at which neither holds more than a file. -/
structure DifferAt (location : Location) (before after : FileTree) : Prop where
  start : after.start = before.start
  elsewhere : ∀ other, other ≠ location → after.node? other = before.node? other
  leafBefore : before.LeafAt location
  leafAfter : after.LeafAt location

theorem LeafAt.not_isDirectoryAt {tree : FileTree} {location : Location}
    (leaf : tree.LeafAt location) : ¬ tree.isDirectoryAt location = true := by
  intro isDirectory
  obtain ⟨content, same⟩ := leaf .directory (by simpa [isDirectoryAt] using isDirectory)
  cases same

theorem DifferAt.symm {location : Location} {before after : FileTree}
    (differ : DifferAt location before after) : DifferAt location after before where
  start := differ.start.symm
  elsewhere other different := (differ.elsewhere other different).symm
  leafBefore := differ.leafAfter
  leafAfter := differ.leafBefore

theorem DifferAt.isDirectoryAt {location here : Location} {before after : FileTree}
    (differ : DifferAt location before after) (inside : before.isDirectoryAt here = true) :
    after.isDirectoryAt here = true := by
  have different : here ≠ location := by
    rintro rfl
    exact differ.leafBefore.not_isDirectoryAt inside
  rw [FileTree.isDirectoryAt] at inside ⊢
  rw [differ.elsewhere here different, inside]

theorem Walks.ends {tree : FileTree} {purpose : Purpose} {links : Nat} {here : Location}
    {names : List String} {isOpen : Bool} {arrival : Arrival}
    (walks : Walks tree purpose links here names isOpen arrival)
    (outside : ¬ tree.isDirectoryAt here = true) : names = [] ∧ arrival = ⟨here, isOpen⟩ := by
  cases walks with
  | done => exact ⟨rfl, rfl⟩
  | stay inside => exact absurd inside outside
  | up inside => exact absurd inside outside
  | missing inside => exact absurd inside outside
  | atLink inside => exact absurd inside outside
  | along inside => exact absurd inside outside
  | enter inside => exact absurd inside outside

theorem Walks.toLeaf {tree : FileTree} {purpose : Purpose} {links : Nat} {here : Location}
    {name : String} {isOpen : Bool} (inside : tree.isDirectoryAt here = true)
    (named : Named purpose name [] isOpen) (leaf : tree.LeafAt (here ++ [name])) :
    Walks tree purpose links here [name] isOpen ⟨here ++ [name], isOpen⟩ := by
  cases taken : tree.node? (here ++ [name]) with
  | none => exact .missing inside named taken
  | some node =>
      obtain ⟨content, rfl⟩ := leaf node taken
      exact .enter inside named taken (fun _ => Node.noConfusion) .done

/-- A change to a file leaves every successful walk as it is. -/
theorem Walks.differAt {location : Location} {before after : FileTree} {purpose : Purpose}
    {links : Nat} {here : Location} {names : List String} {isOpen : Bool} {arrival : Arrival}
    (walks : Walks before purpose links here names isOpen arrival)
    (differ : DifferAt location before after) :
    Walks after purpose links here names isOpen arrival := by
  induction walks with
  | done => exact .done
  | stay inside next induction => exact .stay (differ.isDirectoryAt inside) induction
  | up inside next induction => exact .up (differ.isDirectoryAt inside) induction
  | missing inside named free =>
      rename_i here name isOpen
      have inside := differ.isDirectoryAt inside
      by_cases same : here ++ [name] = location
      · exact .toLeaf inside named (same ▸ differ.leafAfter)
      · exact .missing inside named ((differ.elsewhere _ same).trans free)
  | atLink inside named taken stops =>
      rename_i here name isOpen target
      have different : here ++ [name] ≠ location := by
        rintro rfl
        obtain ⟨content, same⟩ := differ.leafBefore _ taken
        cases same
      exact .atLink (differ.isDirectoryAt inside) named
        ((differ.elsewhere _ different).trans taken) stops
  | along inside named taken follows next induction =>
      rename_i here name rest isOpen target arrival
      have different : here ++ [name] ≠ location := by
        rintro rfl
        obtain ⟨content, same⟩ := differ.leafBefore _ taken
        cases same
      exact .along (differ.isDirectoryAt inside) named
        ((differ.elsewhere _ different).trans taken) follows induction
  | enter inside named taken noLink next induction =>
      rename_i here name rest isOpen node arrival
      have inside := differ.isDirectoryAt inside
      by_cases same : here ++ [name] = location
      · -- a file is not entered, so the walk ends at it
        have outside := differ.leafBefore.not_isDirectoryAt
        rw [← same] at outside
        obtain ⟨rfl, rfl⟩ := next.ends outside
        exact .toLeaf inside named (same ▸ differ.leafAfter)
      · exact .enter inside named ((differ.elsewhere _ same).trans taken) noLink induction

/-! ## Opening a file -/

theorem Walks.target_of_opening {tree : FileTree} {links : Nat} {here : Location}
    {names : List String} {isOpen : Bool} {arrival : Arrival}
    (walks : Walks tree .opening links here names isOpen arrival) :
    Walks tree .target links here names isOpen arrival := by
  have asTarget {name : String} {rest : List String} {isOpen : Bool}
      (named : Named .opening name rest isOpen) : Named .target name rest isOpen :=
    ⟨named.notHere, named.notParent, fun refused => Purpose.noConfusion refused.1, named.short⟩
  induction walks with
  | done => exact .done
  | stay inside next induction => exact .stay inside induction
  | up inside next induction => exact .up inside induction
  | missing inside named free => exact .missing inside (asTarget named) free
  | atLink inside named taken stops => cases stops
  | along inside named taken follows next induction =>
      exact .along inside (asTarget named) taken (fun stops => Bool.noConfusion stops.2) induction
  | enter inside named taken noLink next induction =>
      exact .enter inside (asTarget named) taken noLink induction

/-- A tree as a system keeps it: everything stands in a directory, and relative paths start in
one. -/
structure Rooted (tree : FileTree) : Prop where
  start : tree.isDirectoryAt tree.start = true
  parents : ∀ entry ∈ tree.nodes, tree.isDirectoryAt entry.1.dropLast = true

instance (tree : FileTree) : Decidable tree.Rooted :=
  decidable_of_iff (tree.isDirectoryAt tree.start = true ∧
      ∀ entry ∈ tree.nodes, tree.isDirectoryAt entry.1.dropLast = true)
    ⟨fun holds => ⟨holds.1, holds.2⟩, fun rooted => ⟨rooted.start, rooted.parents⟩⟩

theorem isDirectoryAt_nil (tree : FileTree) : tree.isDirectoryAt [] = true := by
  simp [isDirectoryAt, node?]

theorem Rooted.isDirectoryAt_dropLast {tree : FileTree} (rooted : tree.Rooted)
    {location : Location} (inside : tree.isDirectoryAt location = true) :
    tree.isDirectoryAt location.dropLast = true := by
  by_cases top : location = []
  · rw [top]
    exact tree.isDirectoryAt_nil
  · have found : tree.nodes.lookup location = some .directory := by
      simpa [isDirectoryAt, node?, top] using inside
    obtain ⟨before, after, same, _⟩ := List.lookup_eq_some_iff.mp found
    refine rooted.parents (location, .directory) ?_
    rw [same]
    exact List.mem_append_right _ List.mem_cons_self

theorem Walks.opens {tree : FileTree} (rooted : tree.Rooted) {links : Nat} {here : Location}
    {names : List String} {isOpen : Bool} {arrival : Arrival}
    (walks : Walks tree .opening links here names isOpen arrival)
    (start : tree.isDirectoryAt here = true) :
    tree.isDirectoryAt arrival.location = true ∨
      (tree.LeafAt arrival.location ∧ arrival.isOpen = false) := by
  have closed {name : String} {isOpen : Bool} (named : Named .opening name [] isOpen) :
      isOpen = false := by
    cases isOpen with
    | false => rfl
    | true => exact absurd ⟨rfl, rfl, rfl⟩ named.allowed
  induction walks with
  | done => exact .inl start
  | stay inside next induction => exact induction start
  | up inside next induction => exact induction (rooted.isDirectoryAt_dropLast inside)
  | missing inside named free =>
      refine .inr ⟨fun node taken => ?_, closed named⟩
      rw [free] at taken
      cases taken
  | atLink inside named taken stops => cases stops
  | along inside named taken follows next induction =>
      rename_i target arrival
      refine induction ?_
      by_cases absolute : target.isAbsolute = true
      · rw [if_pos absolute]
        exact tree.isDirectoryAt_nil
      · rw [if_neg absolute]
        exact inside
  | enter inside named taken noLink next induction =>
      rename_i here name rest isOpen node arrival
      cases node with
      | directory => exact induction (by rw [isDirectoryAt, taken]; rfl)
      | link target => exact absurd rfl (noLink target)
      | file content =>
          have leaf : tree.LeafAt (here ++ [name]) := fun node found =>
            ⟨content, Option.some.inj (found.symm.trans taken)⟩
          obtain ⟨rfl, rfl⟩ := next.ends leaf.not_isDirectoryAt
          exact .inr ⟨leaf, closed named⟩

end GameExport.FileTree
