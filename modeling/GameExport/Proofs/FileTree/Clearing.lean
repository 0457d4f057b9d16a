import GameExport.Proofs.FileTree.Emptying
import GameExport.Proofs.FileTree.Plain
import GameExport.Queue.Worker

/-! # Clearing the place of an output

What stands at a path is removed as a file is: a link is removed itself, and a directory is not.
Main statement: once the place of an output has been cleared, something is there exactly if a
directory stood there. That is so where files may be removed: a system that keeps one for lack of
permission leaves it there as it leaves a directory.
-/

namespace GameExport

namespace FileTree

/-- A directory stands at a path. A link to a directory is none, unless a separator after it asks
for the directory. -/
def HoldsDirectory (tree : FileTree) (path : Path) : Prop :=
  ∃ location, tree.find false path = .ok (location, .directory)

theorem Named.of_target {purpose : Purpose} {name : String} {rest : List String} {isOpen : Bool}
    (named : Named .target name rest isOpen) (other : purpose ≠ .opening) :
    Named purpose name rest isOpen :=
  ⟨named.notHere, named.notParent, fun refused => other refused.1, named.short⟩

/-! ## Where a link at the end is not followed -/

/-- Where two walks arrive that need not follow a link at their end, the first one to remove what
stands there and the second one to look at it, when a walk that follows it comes to an arrival. -/
inductive Shortened (tree : FileTree) (arrival : Arrival) (removing looking : Arrival → Prop) : Prop
  | plain (removes : removing arrival) (looks : looking arrival)
  | atLink {location : Location} {target : Path}
      (taken : tree.node? location = some (.link target))
      (removes : removing ⟨location, false⟩) (looks : looking ⟨location, false⟩)
  | openLink {location : Location} {target : Path}
      (taken : tree.node? location = some (.link target)) (isOpen : arrival.isOpen = true)
      (removes : removing ⟨location, true⟩) (looks : looking arrival)

variable {tree : FileTree} {links : Nat} {here location : Location} {names : List String}
  {isOpen : Bool} {arrival : Arrival} {path : Path}

theorem Shortened.map {removing looking removing' looking' : Arrival → Prop}
    (shortened : Shortened tree arrival removing looking)
    (removes : ∀ stop, removing stop → removing' stop)
    (looks : ∀ stop, looking stop → looking' stop) :
    Shortened tree arrival removing' looking' := by
  cases shortened with
  | plain removed looked => exact .plain (removes _ removed) (looks _ looked)
  | atLink taken removed looked => exact .atLink taken (removes _ removed) (looks _ looked)
  | openLink taken isOpen removed looked =>
      exact .openLink taken isOpen (removes _ removed) (looks _ looked)

theorem Walks.looks_of_open (walks : Walks tree .target links here names isOpen arrival)
    (ends : isOpen = true) :
    Walks tree .entry links here names isOpen arrival ∧ arrival.isOpen = true := by
  induction walks with
  | done => exact ⟨.done, ends⟩
  | stay inside next induction =>
      obtain ⟨looks, isOpen⟩ := induction ends
      exact ⟨.stay inside looks, isOpen⟩
  | up inside next induction =>
      obtain ⟨looks, isOpen⟩ := induction ends
      exact ⟨.up inside looks, isOpen⟩
  | missing inside named free => exact ⟨.missing inside (named.of_target nofun) free, ends⟩
  | atLink _ _ _ stops => cases stops
  | along inside named taken follows next induction =>
      subst ends
      obtain ⟨looks, isOpen⟩ := induction rfl
      exact ⟨.along inside (named.of_target nofun) taken (fun stops => Bool.noConfusion stops.2)
        looks, isOpen⟩
  | enter inside named taken noLink next induction =>
      obtain ⟨looks, isOpen⟩ := induction ends
      exact ⟨.enter inside (named.of_target nofun) taken noLink looks, isOpen⟩

theorem Walks.shortened (walks : Walks tree .target links here names isOpen arrival) :
    Shortened tree arrival (Walks tree .naming links here names isOpen)
      (Walks tree .entry links here names isOpen) := by
  induction walks with
  | done => exact .plain .done .done
  | stay inside next induction =>
      exact induction.map (fun _ => .stay inside) fun _ => .stay inside
  | up inside next induction => exact induction.map (fun _ => .up inside) fun _ => .up inside
  | missing inside named free =>
      exact .plain (.missing inside (named.of_target nofun) free)
        (.missing inside (named.of_target nofun) free)
  | atLink _ _ _ stops => cases stops
  | @along links here name rest isOpen target arrival inside named taken follows next induction =>
      cases rest with
      | nil =>
          -- Only here is a link met that one of the walks does not follow.
          have removes :
              Walks tree .naming (links + 1) here [name] isOpen ⟨here ++ [name], isOpen⟩ :=
            .atLink inside (named.of_target nofun) taken rfl
          cases isOpen with
          | true =>
              have walks := Walks.along inside named taken follows next
              obtain ⟨looks, isOpen⟩ := walks.looks_of_open rfl
              exact .openLink taken isOpen removes looks
          | false => exact .atLink taken removes (.atLink inside (named.of_target nofun) taken rfl)
      | cons following rest =>
          exact induction.map
            (fun _ => .along inside (named.of_target nofun) taken fun last => nomatch last.1)
            fun _ => .along inside (named.of_target nofun) taken fun last => nomatch last.1
  | enter inside named taken noLink next induction =>
      exact induction.map (fun _ => .enter inside (named.of_target nofun) taken noLink)
        fun _ => .enter inside (named.of_target nofun) taken noLink

theorem shortened_of_place (arrives : tree.place .target path = .ok arrival) :
    Shortened tree arrival (fun stop => tree.place .naming path = .ok stop)
      fun stop => tree.place .entry path = .ok stop := by
  obtain ⟨walkable, walks⟩ := place_eq_ok_iff.mp arrives
  exact walks.shortened.map (fun _ removes => place_eq_ok_iff.mpr ⟨walkable, removes⟩)
    fun _ looks => place_eq_ok_iff.mpr ⟨walkable, looks⟩

/-! ## Removing what stands at a path -/

theorem pathExists_iff : tree.pathExists path = true ↔
    ∃ location node, tree.find true path = .ok (location, node) := by
  rw [pathExists, isOk_iff_exists]
  constructor
  · rintro ⟨node, leads⟩
    obtain ⟨location, found⟩ := status_eq_ok_iff.mp leads
    exact ⟨location, node, found⟩
  · rintro ⟨location, node, found⟩
    exact ⟨node, status_eq_ok_iff.mpr ⟨location, found⟩⟩

theorem HoldsDirectory.pathExists (holds : tree.HoldsDirectory path) :
    tree.pathExists path = true := by
  obtain ⟨location, found⟩ := holds
  obtain ⟨isOpen, arrives, taken, allowed⟩ := find_eq_ok_iff.mp found
  obtain ⟨walkable, looks⟩ := place_eq_ok_iff.mp arrives
  have walks := looks.target_of_entry fun target held => by
    rw [taken] at held
    cases held
  exact pathExists_iff.mpr ⟨location, .directory,
    find_eq_ok_iff.mpr ⟨isOpen, place_eq_ok_iff.mpr ⟨walkable, walks⟩, taken, allowed⟩⟩

theorem removeFile_eq_erase {node : Node}
    (arrives : tree.place .naming path = .ok ⟨location, false⟩)
    (taken : tree.node? location = some node) (noDirectory : node ≠ .directory) :
    tree.removeFile path = .ok (tree.erase location) := by
  simp only [removeFile, arrives, Bind.bind, Except.bind, seen, taken]
  cases node with
  | directory => exact absurd rfl noDirectory
  | file content => rfl
  | link target => rfl

theorem removeFile_of_pathExists (present : tree.pathExists path = true) :
    (tree.HoldsDirectory path ∧ ∃ cause, tree.removeFile path = .error cause) ∨
      (¬ tree.HoldsDirectory path ∧ ∃ location node, tree.node? location = some node ∧
        node ≠ .directory ∧ tree.place .naming path = .ok ⟨location, false⟩ ∧
        tree.removeFile path = .ok (tree.erase location)) := by
  obtain ⟨location, node, found⟩ := pathExists_iff.mp present
  obtain ⟨isOpen, arrives, taken, allowed⟩ := find_eq_ok_iff.mp found
  have leaves {location : Location} {node : Node}
      (looked : tree.find false path = .ok (location, node)) (noDirectory : node ≠ .directory) :
      ¬ tree.HoldsDirectory path := by
    rintro ⟨other, held⟩
    rw [looked] at held
    cases held
    exact noDirectory rfl
  cases shortened_of_place arrives with
  | plain removes looks =>
      have looked : tree.find false path = .ok (location, node) :=
        find_eq_ok_iff.mpr ⟨isOpen, looks, taken, allowed⟩
      by_cases directory : node = .directory
      · subst directory
        refine .inl ⟨⟨location, looked⟩, .isDirectory, ?_⟩
        simp [removeFile, removes, Bind.bind, Except.bind, seen, taken]
      · obtain rfl : isOpen = false := by simpa [directory] using allowed
        exact .inr ⟨leaves looked directory, location, node, taken, directory, removes,
          removeFile_eq_erase removes taken directory⟩
  | atLink held removes looks =>
      rename_i stop target
      have looked : tree.find false path = .ok (stop, .link target) :=
        find_eq_ok_iff.mpr ⟨false, looks, held, by simp⟩
      exact .inr ⟨leaves looked Node.noConfusion, _, _, held, Node.noConfusion, removes,
        removeFile_eq_erase removes held Node.noConfusion⟩
  | openLink held ends removes looks =>
      obtain rfl : isOpen = true := ends
      obtain rfl : node = .directory := by simpa using allowed
      refine .inl ⟨⟨location, find_eq_ok_iff.mpr ⟨true, looks, taken, allowed⟩⟩, .notDirectory, ?_⟩
      simp [removeFile, removes, Bind.bind, Except.bind, seen, held]

theorem pathExists_erase (arrives : tree.place .naming path = .ok ⟨location, isOpen⟩)
    (below : location ≠ []) : (tree.erase location).pathExists path = false := by
  rw [Bool.eq_false_iff]
  intro present
  have gone := node?_erase_self tree below
  have shrinks : Shrinks tree (tree.erase location) :=
    shrinks_filter tree fun other => other != location
  -- Whatever is left there was met by the walk that came to what was taken away.
  have same {stop : Arrival} {node : Node}
      (stops : (tree.erase location).place .naming path = .ok stop)
      (left : (tree.erase location).node? stop.location = some node) : False := by
    have before := shrinks.place_eq stops (by simp [left])
    rw [arrives] at before
    cases before
    rw [gone] at left
    cases left
  obtain ⟨there, node, found⟩ := pathExists_iff.mp present
  obtain ⟨ends, leads, taken, _⟩ := find_eq_ok_iff.mp found
  cases shortened_of_place leads with
  | plain removes _ => exact same removes taken
  | atLink held removes _ => exact same removes held
  | openLink held _ removes _ => exact same removes held

end FileTree

open FileTree Workshop

/-- Once the place of an output has been cleared, something is there exactly if a directory stood
there. -/
theorem Workshop.pathExists_clearOutput (tree : FileTree) (output : Path) :
    (clearOutput tree output).pathExists output = true ↔ tree.HoldsDirectory output := by
  rw [clearOutput]
  split
  · rename_i present
    rcases removeFile_of_pathExists present with
      ⟨holds, cause, refused⟩ | ⟨empty, location, node, taken, noDirectory, arrives, removed⟩
    · rw [refused]
      exact iff_of_true present holds
    · have below : location ≠ [] := by
        rintro rfl
        cases taken
        exact noDirectory rfl
      rw [removed]
      exact iff_of_false (Bool.eq_false_iff.mp (pathExists_erase arrives below)) empty
  · rename_i absent
    exact iff_of_false absent fun holds => absent holds.pathExists

/-- Clearing the place of an entry leaves what has another name, in whatever directory. -/
theorem Workshop.node?_clearOutput_child (tree : FileTree) (directory : Path) {name other : String}
    (isName : IsName name) (different : other ≠ name) (here : Location) :
    (clearOutput tree (directory.child name)).node? (here ++ [other]) =
      tree.node? (here ++ [other]) := by
  rw [clearOutput]
  split
  · cases removed : tree.removeFile (directory.child name) with
    | error cause => rfl
    | ok after =>
        rcases exists_erase_of_removeFile isName removed with ⟨there, _, rfl⟩
        apply node?_erase_of_ne
        intro same
        exact different (List.cons.inj (List.append_inj' same rfl).2).1
  · rfl

end GameExport
