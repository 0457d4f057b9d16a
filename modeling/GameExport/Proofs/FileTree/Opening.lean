import GameExport.Proofs.FileTree.Change

/-! # Opening a file to write it

What is opened stands in a directory, under a name. Main statements: writing what has been opened
leaves a tree as a system keeps it, and what other paths lead to stays as it was.
-/

namespace GameExport.FileTree

variable {tree before after : FileTree} {path : Path} {location : Location}

/-! ## Trees as a system keeps them -/

theorem Walks.isDirectoryAt_dropLast (rooted : tree.Rooted) {links : Nat} {here : Location}
    {names : List String} {isOpen : Bool} {arrival : Arrival}
    (walks : Walks tree .opening links here names isOpen arrival)
    (start : tree.isDirectoryAt here = true) :
    tree.isDirectoryAt arrival.location.dropLast = true := by
  induction walks with
  | done => exact rooted.isDirectoryAt_dropLast start
  | stay inside next induction => exact induction start
  | up inside next induction => exact induction (rooted.isDirectoryAt_dropLast inside)
  | missing inside named free => simpa using inside
  | atLink inside named taken stops => cases stops
  | along inside named taken follows next induction =>
      apply induction
      split
      · exact tree.isDirectoryAt_nil
      · exact inside
  | enter inside named taken noLink next induction =>
      rename_i here name rest isOpen node arrival
      by_cases further : tree.isDirectoryAt (here ++ [name]) = true
      · exact induction further
      · rcases next.ends further with ⟨_, rfl⟩
        simpa using inside

theorem Kept.wellNamed (kept : tree.Kept) : tree.WellNamed where
  start := by
    have stands : tree.node? tree.start = some .directory := by
      simpa [isDirectoryAt] using kept.rooted.start
    exact kept.isName_of_node? stands
  places := fun _ _ => kept.isName_of_node?

theorem Kept.put_writable (kept : tree.Kept) (opens : tree.writable path = .ok location)
    (content : Bytes) : (tree.put location (.file content)).Kept := by
  rcases (writable_eq_ok_iff kept.rooted).mp opens with ⟨arrives, leaf⟩
  have walks := (place_eq_ok_iff.mp arrives).2
  have parent := walks.isDirectoryAt_dropLast kept.rooted (kept.rooted.isDirectoryAt_origin path)
  have areNames := kept.wellNamed.isName_of_place arrives
  rcases List.eq_nil_or_concat location with rfl | ⟨here, name, rfl⟩
  · exact absurd rfl leaf.ne_nil
  · rw [List.concat_eq_append] at parent areNames leaf ⊢
    rw [List.dropLast_concat] at parent
    exact kept.put parent (areNames name (by simp)) leaf content

theorem Rooted.differAt_put (rooted : tree.Rooted) (opens : tree.writable path = .ok location)
    (content : Bytes) : DifferAt location tree (tree.put location (.file content)) :=
  ((writable_eq_ok_iff rooted).mp opens).2.differAt_put content

/-! ## Other paths -/

def LeadsTo (tree : FileTree) (path : Path) (location : Location) : Prop :=
  ∃ arrival, tree.place .target path = .ok arrival ∧ arrival.location = location

instance (tree : FileTree) (path : Path) (location : Location) :
    Decidable (tree.LeadsTo path location) :=
  decidable_of_iff (∃ arrival ∈ (tree.place .target path).toOption, arrival.location = location) (by
    constructor
    · rintro ⟨arrival, arrives, same⟩
      exact ⟨arrival, eq_ok_of_toOption arrives, same⟩
    · rintro ⟨arrival, arrives, same⟩
      exact ⟨arrival, by rw [arrives]; rfl, same⟩)

theorem leadsTo_of_find {node : Node} (found : tree.find true path = .ok (location, node)) :
    tree.LeadsTo path location := by
  rcases find_eq_ok_iff.mp found with ⟨isOpen, arrives, _⟩
  exact ⟨_, arrives, rfl⟩

theorem LeadsTo.differAt {other : Location} (leads : before.LeadsTo path other)
    (differ : DifferAt location before after) : after.LeadsTo path other := by
  rcases leads with ⟨arrival, arrives, same⟩
  exact ⟨arrival, place_differAt differ arrives, same⟩

theorem status_eq_ok_of_differAt (differ : DifferAt location before after)
    (apart : ¬ before.LeadsTo path location) {node : Node} :
    after.status path = .ok node ↔ before.status path = .ok node := by
  rw [status_eq_ok_iff, status_eq_ok_iff]
  constructor
  · rintro ⟨other, found⟩
    have elsewhere : other ≠ location := by
      rintro rfl
      exact apart ((leadsTo_of_find found).differAt differ.symm)
    exact ⟨other, find_differAt differ.symm found elsewhere⟩
  · rintro ⟨other, found⟩
    have elsewhere : other ≠ location := by
      rintro rfl
      exact apart (leadsTo_of_find found)
    exact ⟨other, find_differAt differ found elsewhere⟩

theorem read_eq_ok_iff_status {content : Bytes} :
    tree.read path = .ok content ↔ tree.status path = .ok (.file content) := by
  rw [read_eq_ok_iff, status_eq_ok_iff]

theorem read_eq_ok_of_differAt (differ : DifferAt location before after)
    (apart : ¬ before.LeadsTo path location) {content : Bytes} :
    after.read path = .ok content ↔ before.read path = .ok content := by
  rw [read_eq_ok_iff_status, read_eq_ok_iff_status, status_eq_ok_of_differAt differ apart]

/-- What is opened at a path after something was written is what was opened there before. -/
theorem writable_of_differAt (rooted : before.Rooted) (rootedAfter : after.Rooted)
    (differ : DifferAt location before after) {other : Location}
    (opens : after.writable path = .ok other) : before.writable path = .ok other := by
  rcases (writable_eq_ok_iff rootedAfter).mp opens with ⟨arrives, leaf⟩
  apply (writable_eq_ok_iff rooted).mpr
  refine ⟨place_differAt differ.symm arrives, ?_⟩
  by_cases same : other = location
  · exact same ▸ differ.leafBefore
  · intro node taken
    exact leaf node ((differ.elsewhere other same).trans taken)

/-- What is written at a path is not what another path leads to. -/
def WritesApart (tree : FileTree) (output other : Path) : Prop :=
  ∀ location, tree.writable output = .ok location → ¬ tree.LeadsTo other location

instance (tree : FileTree) (output other : Path) : Decidable (tree.WritesApart output other) :=
  decidable_of_iff (∀ location ∈ (tree.writable output).toOption, ¬ tree.LeadsTo other location) (by
    constructor
    · intro apart location opens
      exact apart location (by rw [opens]; rfl)
    · intro apart location opens
      exact apart location (eq_ok_of_toOption opens))

theorem WritesApart.differAt {output : Path} (apart : before.WritesApart output path)
    (rooted : before.Rooted) (rootedAfter : after.Rooted)
    (differ : DifferAt location before after) : after.WritesApart output path := by
  intro other opens leads
  exact apart other (writable_of_differAt rooted rootedAfter differ opens)
    (leads.differAt differ.symm)

theorem pathExists_iff_status : tree.pathExists path = true ↔ ∃ node, tree.status path = .ok node :=
  isOk_iff_exists

end GameExport.FileTree
