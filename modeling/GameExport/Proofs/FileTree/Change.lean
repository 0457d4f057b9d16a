import GameExport.Proofs.FileTree.Emptying
import Mathlib.Logic.Relation

/-! # Changes near directories

What can change in a tree when only entries of some directories are written or removed. Main
statements: writing, copying and removing entries of directories and creating the directories
themselves are made of steps each of which changes what stands in one of the directories, what a
link that stands there leads to, or makes a directory on the way to one of them.
-/

namespace GameExport.FileTree

open Relation (ReflTransGen)

/-! ## Names in trees -/

structure WellNamed (tree : FileTree) : Prop where
  start : ∀ name ∈ tree.start, IsName name
  places : ∀ location node, tree.node? location = some node → ∀ name ∈ location, IsName name

theorem wellNamed_of_nodes {tree : FileTree} (start : ∀ name ∈ tree.start, IsName name)
    (nodes : ∀ entry ∈ tree.nodes, ∀ name ∈ entry.1, IsName name) : tree.WellNamed where
  start := start
  places := by
    intro location node taken name member
    by_cases top : location = []
    · rw [top] at member
      cases member
    · exact nodes _ (mem_nodes_of_node? top taken) name member

theorem plain_of_mem_steps {path : Path} {name : String} (member : name ∈ steps path) :
    name ≠ "" ∧ '/' ∉ name.toList := by
  rw [steps_eq, stepsIn, List.mem_filter, List.mem_map] at member
  rcases member with ⟨⟨part, among, rfl⟩, notEmpty⟩
  refine ⟨by simpa using notEmpty, ?_⟩
  rw [String.toList_ofList]
  exact (mem_splitOn among).1

theorem Walks.isName {tree : FileTree} {purpose : Purpose} {links : Nat} {here : Location}
    {names : List String} {isOpen : Bool} {arrival : Arrival}
    (walks : Walks tree purpose links here names isOpen arrival)
    (areNames : ∀ name ∈ here, IsName name)
    (plain : ∀ name ∈ names, name ≠ "" ∧ '/' ∉ name.toList) :
    ∀ name ∈ arrival.location, IsName name := by
  have extend {here : Location} {name : String} {rest : List String} {isOpen : Bool}
      (areNames : ∀ name ∈ here, IsName name)
      (plain : ∀ other ∈ name :: rest, other ≠ "" ∧ '/' ∉ other.toList)
      (named : Named purpose name rest isOpen) : ∀ other ∈ here ++ [name], IsName other := by
    intro other member
    rcases List.mem_append.mp member with member | last
    · exact areNames other member
    · rw [List.mem_singleton.mp last]
      rcases plain _ List.mem_cons_self with ⟨notEmpty, noSlash⟩
      exact ⟨notEmpty, named.notHere, named.notParent, noSlash⟩
  induction walks with
  | done => exact areNames
  | stay inside next induction =>
      exact induction areNames fun name member => plain name (List.mem_cons_of_mem _ member)
  | up inside next induction =>
      exact induction (fun name member => areNames name (List.dropLast_subset _ member))
        fun name member => plain name (List.mem_cons_of_mem _ member)
  | missing inside named free => exact extend areNames plain named
  | atLink inside named taken stops => exact extend areNames plain named
  | along inside named taken follows next induction =>
      rename_i target arrival
      apply induction
      · split
        · exact nofun
        · exact areNames
      · intro other member
        rcases List.mem_append.mp member with member | member
        · exact plain_of_mem_steps member
        · exact plain other (List.mem_cons_of_mem _ member)
  | enter inside named taken noLink next induction =>
      exact induction (extend areNames plain named)
        fun other member => plain other (List.mem_cons_of_mem _ member)

theorem WellNamed.isName_of_place {tree : FileTree} (wellNamed : tree.WellNamed)
    {purpose : Purpose} {path : Path} {arrival : Arrival}
    (arrives : tree.place purpose path = .ok arrival) : ∀ name ∈ arrival.location, IsName name := by
  refine (place_eq_ok_iff.mp arrives).2.isName ?_ fun name => plain_of_mem_steps
  rw [origin]
  split
  · intro name member
    cases member
  · exact wellNamed.start

theorem WellNamed.isName_of_sortedChildren {tree : FileTree} (wellNamed : tree.WellNamed)
    {here : Location} {entry : String × Node} (member : entry ∈ tree.sortedChildren here) :
    IsName entry.1 := by
  have listed := mem_childrenOf.mp ((perm_sortedChildren tree here).mem_iff.mp member)
  have stands : ∃ node, tree.node? (here ++ [entry.1]) = some node := by
    rw [node?, if_neg (by simp)]
    exact Option.isSome_iff_exists.mp (List.lookup_isSome_iff.mpr ⟨_, listed, by simp⟩)
  rcases stands with ⟨node, taken⟩
  exact wellNamed.places _ node taken entry.1 (by simp)

/-! ## Entries of directories -/

/-- Where the entries of a directory stand. An empty path stands for the place where relative paths
start. -/
def HomeOf (tree : FileTree) (directory : Path) (here : Location) : Prop :=
  if directory.text = "" then here = tree.start
  else tree.find true directory = .ok (here, .directory)

instance (tree : FileTree) (directory : Path) (here : Location) :
    Decidable (tree.HomeOf directory here) :=
  decidable_of_iff (if directory.text = "" then here = tree.start
      else (tree.find true directory).toOption = some (here, .directory)) (by
    rw [HomeOf]
    split
    · exact .rfl
    · exact ⟨eq_ok_of_toOption, fun home => by rw [home]; rfl⟩)

theorem HomeOf.unique {tree : FileTree} {directory : Path} {here there : Location}
    (home : tree.HomeOf directory here) (other : tree.HomeOf directory there) : here = there := by
  rw [HomeOf] at home other
  split at home
  · rename_i empty
    rw [if_pos empty] at other
    rw [home, other]
  · rename_i notEmpty
    rw [if_neg notEmpty, home] at other
    cases other
    rfl

theorem place_entry {tree : FileTree} {purpose : Purpose} {directory : Path} {name : String}
    (isName : IsName name) {arrival : Arrival}
    (arrives : tree.place purpose (directory.child name) = .ok arrival) :
    ∃ here, tree.HomeOf directory here ∧
      (tree.Stops purpose (here ++ [name]) → arrival = ⟨here ++ [name], false⟩) := by
  by_cases empty : directory.text = ""
  · have child : directory.child name = ⟨name⟩ := by
      rw [Path.child, Path.join, if_neg isName.not_isAbsolute, if_pos empty]
    have closed : endsOpen ⟨name⟩ = false := by
      have apart : name.toList.getLast? ≠ some '/' :=
        fun same => isName.noSlash (List.mem_of_getLast? same)
      simpa [endsOpen] using apart
    have walks := (place_eq_ok_iff.mp (child ▸ arrives)).2
    rw [steps_eq, stepsIn_name isName, closed, origin, if_neg isName.not_isAbsolute] at walks
    refine ⟨tree.start, ?_, walks.last isName⟩
    rw [HomeOf, if_pos empty]
  · rcases place_child empty isName arrives with ⟨here, found, last⟩
    refine ⟨here, ?_, last⟩
    rwa [HomeOf, if_neg empty]

/-! ## Changes -/

/-- Two trees that differ at some locations only. No link is new, and whatever is new has a name
that an entry of a directory can have. -/
structure Change (within : Location → Prop) (before after : FileTree) : Prop where
  start : after.start = before.start
  elsewhere : ∀ location, ¬ within location → after.node? location = before.node? location
  noLink : ∀ location target, after.node? location = some (.link target) →
    before.node? location = some (.link target)
  named : ∀ location node, after.node? location = some node →
    (∃ old, before.node? location = some old) ∨ ∀ name ∈ location, IsName name

section Changes

variable {within : Location → Prop} {before after tree : FileTree} {location : Location}

theorem Change.mono {wider : Location → Prop} (change : Change within before after)
    (includes : ∀ location, within location → wider location) : Change wider before after where
  start := change.start
  elsewhere location outside := change.elsewhere location fun inside =>
    outside (includes location inside)
  noLink := change.noLink
  named := change.named

theorem Change.wellNamed (change : Change within before after) (wellNamed : before.WellNamed) :
    after.WellNamed where
  start := by
    rw [change.start]
    exact wellNamed.start
  places := by
    intro location node taken
    rcases change.named location node taken with ⟨old, stood⟩ | areNames
    · exact wellNamed.places location old stood
    · exact areNames

theorem Shrinks.change (shrinks : Shrinks before after)
    (elsewhere : ∀ location, ¬ within location → after.node? location = before.node? location) :
    Change within before after where
  start := shrinks.start
  elsewhere := elsewhere
  noLink location target := shrinks.fewer location (.link target)
  named location node taken := .inl ⟨node, shrinks.fewer location node taken⟩

theorem change_erase (tree : FileTree) (location : Location) :
    Change (· = location) tree (tree.erase location) :=
  (shrinks_filter tree fun other => other != location).change
    fun _ different => node?_erase_of_ne tree different

theorem change_eraseBelow (tree : FileTree) (location : Location) :
    Change (location <+: ·) tree (tree.eraseBelow location) := by
  refine (shrinks_filter tree fun other => !location.isPrefixOf other).change ?_
  intro other outside
  have kept : location.isPrefixOf other = false := by
    rw [← Bool.not_eq_true, List.isPrefixOf_iff_prefix]
    exact outside
  by_cases top : other = []
  · rw [node?, node?, if_pos top, if_pos top]
  · have left := lookup_filter (fun other => !location.isPrefixOf other) tree.nodes other
    rw [kept] at left
    rw [node?, node?, if_neg top, if_neg top]
    exact left

theorem change_put {node : Node} (below : location ≠ []) (areNames : ∀ name ∈ location, IsName name)
    (noLink : ∀ target, node ≠ .link target) :
    Change (· = location) tree (tree.put location node) where
  start := rfl
  elsewhere other different := node?_put_of_ne tree node different
  noLink other target taken := by
    by_cases same : other = location
    · subst same
      rw [node?_put_self tree node below] at taken
      exact absurd (Option.some.inj taken) (noLink target)
    · rwa [node?_put_of_ne tree node same] at taken
  named other held taken := by
    by_cases same : other = location
    · subst same
      exact .inr areNames
    · rw [node?_put_of_ne tree node same] at taken
      exact .inl ⟨held, taken⟩

end Changes

/-! ## Steps -/

inductive Step (directories : List Path) (before after : FileTree) : Prop
  | entry {directory here name} (member : directory ∈ directories)
      (home : before.HomeOf directory here) (isName : IsName name)
      (change : Change (here ++ [name] <+: ·) before after)
  /-- What a link leads to is written that is an entry of one of the directories. -/
  | through {directory here name target location} (member : directory ∈ directories)
      (home : before.HomeOf directory here) (isName : IsName name)
      (taken : before.node? (here ++ [name]) = some (.link target))
      (opens : before.writable (directory.child name) = .ok location)
      (change : Change (· = location) before after)
  | directory {directory path steps} (member : directory ∈ directories)
      (above : path ∈ ancestors steps directory) (created : before.createDirectory path = .ok after)

section Steps

variable {directories : List Path} {directory : Path} {name : String} {before after : FileTree}

theorem ne_nil_of_writable {tree : FileTree} {path : Path} {location : Location}
    (opens : tree.writable path = .ok location) : location ≠ [] := by
  rintro rfl
  rw [writable] at opens
  cases arrives : tree.place .opening path with
  | error cause =>
      rw [arrives] at opens
      cases opens
  | ok arrival =>
      rw [arrives] at opens
      simp only [Bind.bind, Except.bind] at opens
      split at opens
      · cases opens
      · rename_i outside
        have top : arrival.location = [] := Except.ok.inj opens
        rw [top] at outside
        exact outside tree.isDirectoryAt_nil

theorem place_of_writable {tree : FileTree} {path : Path} {location : Location}
    (opens : tree.writable path = .ok location) :
    ∃ isOpen, tree.place .opening path = .ok ⟨location, isOpen⟩ := by
  rw [writable] at opens
  cases arrives : tree.place .opening path with
  | error cause =>
      rw [arrives] at opens
      cases opens
  | ok arrival =>
      rw [arrives] at opens
      simp only [Bind.bind, Except.bind] at opens
      split at opens
      · cases opens
      · cases opens
        exact ⟨arrival.isOpen, rfl⟩

/-- Changing what an entry of a directory is opened at is a step. -/
theorem step_of_writable {location : Location} (member : directory ∈ directories)
    (isName : IsName name) (opens : before.writable (directory.child name) = .ok location)
    (change : Change (· = location) before after) : Step directories before after := by
  rcases place_of_writable opens with ⟨isOpen, arrives⟩
  rcases place_entry isName arrives with ⟨here, home, last⟩
  by_cases link : ∃ target, before.node? (here ++ [name]) = some (.link target)
  · rcases link with ⟨target, taken⟩
    exact .through member home isName taken opens change
  · have stops : before.Stops .opening (here ++ [name]) :=
      .inr fun target taken => link ⟨target, taken⟩
    cases last stops
    exact .entry member home isName (change.mono fun other same => same ▸ List.prefix_refl _)

theorem step_put {location : Location} (wellNamed : before.WellNamed)
    (member : directory ∈ directories) (isName : IsName name)
    (opens : before.writable (directory.child name) = .ok location) (content : Bytes) :
    Step directories before (before.put location (.file content)) := by
  rcases place_of_writable opens with ⟨isOpen, arrives⟩
  have areNames := wellNamed.isName_of_place arrives
  exact step_of_writable member isName opens
    (change_put (ne_nil_of_writable opens) areNames fun _ => Node.noConfusion)

theorem WellNamed.write (wellNamed : before.WellNamed) {path : Path} {content : Bytes}
    (written : before.write path content = .ok after) : after.WellNamed := by
  rcases writable_of_write written with ⟨location, opens, rfl⟩
  rcases place_of_writable opens with ⟨isOpen, arrives⟩
  have change : Change (· = location) before (before.put location (.file content)) :=
    change_put (ne_nil_of_writable opens) (wellNamed.isName_of_place arrives)
      fun _ => Node.noConfusion
  exact change.wellNamed wellNamed

theorem step_write {content : Bytes} (wellNamed : before.WellNamed)
    (member : directory ∈ directories) (isName : IsName name)
    (written : before.write (directory.child name) content = .ok after) :
    Step directories before after := by
  rcases writable_of_write written with ⟨location, opens, rfl⟩
  exact step_put wellNamed member isName opens content

theorem exists_erase_of_removeFile (isName : IsName name)
    (removed : before.removeFile (directory.child name) = .ok after) :
    ∃ here, before.HomeOf directory here ∧ after = before.erase (here ++ [name]) := by
  rw [removeFile] at removed
  cases arrives : before.place .naming (directory.child name) with
  | error cause =>
      rw [arrives] at removed
      cases removed
  | ok arrival =>
      rcases place_entry isName arrives with ⟨here, home, last⟩
      cases last (.inl rfl)
      refine ⟨here, home, ?_⟩
      rw [arrives] at removed
      simp only [Bind.bind, Except.bind, seen] at removed
      cases taken : before.node? (here ++ [name]) with
      | none =>
          rw [taken] at removed
          cases removed
      | some node =>
          rw [taken] at removed
          cases node <;> simp at removed
          · exact removed.symm
          · exact removed.symm

theorem step_removeFile (member : directory ∈ directories) (isName : IsName name)
    (removed : before.removeFile (directory.child name) = .ok after) :
    Step directories before after := by
  rcases exists_erase_of_removeFile isName removed with ⟨here, home, rfl⟩
  exact .entry member home isName
    ((change_erase before _).mono fun other same => same ▸ List.prefix_refl _)

theorem step_removeEntry (member : directory ∈ directories) (isName : IsName name)
    (removed : removeEntry (directory.child name) before = .ok after) :
    Step directories before after := by
  rw [removeEntry] at removed
  split at removed
  · rw [removeAll] at removed
    cases stands : before.find false (directory.child name) with
    | error cause =>
        rw [stands] at removed
        cases removed
    | ok place =>
        rcases place with ⟨location, node⟩
        rw [stands] at removed
        cases removed
        rcases find_eq_ok_iff.mp stands with ⟨isOpen, arrives, _⟩
        rcases place_entry isName arrives with ⟨here, home, last⟩
        cases last (.inl rfl)
        exact .entry member home isName (change_eraseBelow before _)
  · exact step_removeFile member isName removed

theorem Step.wellNamed (step : Step directories before after) (wellNamed : before.WellNamed) :
    after.WellNamed := by
  cases step with
  | entry _ _ _ change => exact change.wellNamed wellNamed
  | through _ _ _ _ _ change => exact change.wellNamed wellNamed
  | directory _ _ created =>
      rename_i path _ _ _
      rw [createDirectory] at created
      cases arrives : before.place .naming path with
      | error cause =>
          rw [arrives] at created
          cases created
      | ok arrival =>
          rw [arrives] at created
          simp only [Bind.bind, Except.bind] at created
          cases taken : before.node? arrival.location with
          | some node =>
              rw [taken] at created
              cases created
          | none =>
              rw [taken] at created
              cases created
              have below : arrival.location ≠ [] := by
                intro top
                rw [top] at taken
                cases taken
              have change : Change (· = arrival.location) before
                  (before.put arrival.location .directory) :=
                change_put below (wellNamed.isName_of_place arrives) fun _ => Node.noConfusion
              exact change.wellNamed wellNamed

/-! ## Runs of steps -/

def Steps (directories : List Path) : FileTree → FileTree → Prop := ReflTransGen (Step directories)

theorem Steps.wellNamed (steps : Steps directories before after) (wellNamed : before.WellNamed) :
    after.WellNamed := by
  induction steps with
  | refl => exact wellNamed
  | tail _ step induction => exact step.wellNamed induction

theorem steps_copy {source : Path} (wellNamed : before.WellNamed)
    (member : directory ∈ directories) (isName : IsName name)
    (copied : before.copy source (directory.child name) = .ok after) :
    Steps directories before after := by
  rcases of_copy copied with ⟨_, _, between, content, _, emptied, _, written⟩
  have first : Step directories before between := step_write wellNamed member isName emptied
  exact .tail (.single first) (step_write (first.wellNamed wellNamed) member isName written)

theorem mem_of_uncreated {tree : FileTree} {paths found needed : List Path}
    (lacks : tree.uncreated paths found = .ok needed) :
    ∀ path ∈ needed, path ∈ paths ∨ path ∈ found := by
  induction paths generalizing found with
  | nil =>
      cases lacks
      exact fun path member => .inr member
  | cons first rest induction =>
      intro path member
      have known (among : path ∈ first :: found) : path ∈ first :: rest ∨ path ∈ found := by
        rcases List.mem_cons.mp among with rfl | among
        · exact .inl List.mem_cons_self
        · exact .inr among
      rw [uncreated] at lacks
      split at lacks
      · cases lacks
        exact known member
      · split at lacks
        · rcases induction lacks path member with among | among
          · exact .inl (List.mem_cons_of_mem _ among)
          · exact known among
        · split at lacks
          · cases lacks
            exact .inr member
          · cases lacks

theorem steps_createEach {paths : List Path}
    (above : ∀ path ∈ paths, ∃ directory ∈ directories, ∃ steps, path ∈ ancestors steps directory) :
    Steps directories before (before.createEach paths).1 := by
  induction paths generalizing before with
  | nil => exact .refl
  | cons first rest induction =>
      have further := fun path member => above path (List.mem_cons_of_mem _ member)
      rw [createEach]
      split
      · rename_i between created
        rcases above first List.mem_cons_self with ⟨directory, member, steps, isAbove⟩
        exact .head (.directory member isAbove created) (induction further)
      · split
        · exact induction further
        · exact .refl

theorem steps_createDirectories (member : directory ∈ directories) :
    Steps directories before (before.createDirectories directory).1 := by
  rw [createDirectories]
  split
  · exact .refl
  · split
    · rename_i needed lacks
      apply steps_createEach
      intro path among
      rcases mem_of_uncreated lacks path among with isAbove | none
      · exact ⟨directory, member, _, isAbove⟩
      · cases none
    · exact .refl

end Steps

end GameExport.FileTree
