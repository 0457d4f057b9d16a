import GameExport.Proofs.FileTree.Walking

/-! # Paths that lead to files

What a path leads to, by the walk of its steps. Main statements: a change to a file is seen at no
other place, and what is written can be read.
-/

namespace GameExport

theorem eq_ok_of_toOption {ε α : Type} {result : Except ε α} {value : α}
    (same : result.toOption = some value) : result = .ok value := by
  cases result with
  | error error => cases same
  | ok other =>
      cases same
      rfl

theorem isOk_iff_exists {ε α : Type} {result : Except ε α} :
    result.isOk = true ↔ ∃ value, result = .ok value := by
  cases result with
  | error error => simp [Except.isOk, Except.toBool]
  | ok value => simp [Except.isOk, Except.toBool]

namespace FileTree

/-! ## Paths -/

def origin (tree : FileTree) (path : Path) : Location :=
  if path.isAbsolute then [] else tree.start

theorem Rooted.isDirectoryAt_origin {tree : FileTree} (rooted : tree.Rooted) (path : Path) :
    tree.isDirectoryAt (tree.origin path) = true := by
  rw [origin]
  split
  · exact tree.isDirectoryAt_nil
  · exact rooted.start

structure Walkable (path : Path) : Prop where
  noZero : ¬ path.text.toList.contains '\x00' = true
  notEmpty : path.text ≠ ""
  short : ¬ pathLimit ≤ path.text.utf8ByteSize

theorem place_eq_ok_iff {tree : FileTree} {purpose : Purpose} {path : Path} {arrival : Arrival} :
    tree.place purpose path = .ok arrival ↔
      Walkable path ∧ Walks tree purpose linkLimit (tree.origin path) (steps path)
        (endsOpen path) arrival := by
  rw [place, follow, ← walk_eq_ok_iff, ← origin]
  constructor
  · intro arrives
    split at arrives
    · cases arrives
    · rename_i fits
      split at arrives
      · cases arrives
      · rename_i noZero
        split at arrives
        · cases arrives
        · rename_i notEmpty
          exact ⟨⟨noZero, notEmpty, fun long => fits ⟨long, by simpa using noZero⟩⟩, arrives⟩
  · rintro ⟨walkable, arrives⟩
    rw [if_neg (fun long => walkable.short long.1), if_neg walkable.noZero,
      if_neg walkable.notEmpty, arrives]

theorem place_differAt {location : Location} {before after : FileTree}
    (differ : DifferAt location before after) {purpose : Purpose} {path : Path} {arrival : Arrival}
    (arrives : before.place purpose path = .ok arrival) :
    after.place purpose path = .ok arrival := by
  obtain ⟨walkable, walks⟩ := place_eq_ok_iff.mp arrives
  have sameOrigin : after.origin path = before.origin path := by rw [origin, origin, differ.start]
  exact place_eq_ok_iff.mpr ⟨walkable, sameOrigin ▸ walks.differAt differ⟩

theorem find_eq_ok_iff {tree : FileTree} {follow : Bool} {path : Path} {location : Location}
    {node : Node} :
    tree.find follow path = .ok (location, node) ↔
      ∃ isOpen, tree.place (if follow then .target else .entry) path = .ok ⟨location, isOpen⟩ ∧
        tree.node? location = some node ∧ ¬ (isOpen && node != .directory) = true := by
  rw [find]
  cases arrives : tree.place (if follow then .target else .entry) path with
  | error cause => simp [Bind.bind, Except.bind]
  | ok arrival =>
      obtain ⟨here, isOpen⟩ := arrival
      cases found : tree.node? here with
      | none =>
          simp [Bind.bind, Except.bind, seen, found]
          grind
      | some other =>
          simp [Bind.bind, Except.bind, seen, found]
          grind

theorem find_differAt {location : Location} {before after : FileTree}
    (differ : DifferAt location before after) {follow : Bool} {path : Path} {here : Location}
    {node : Node} (found : before.find follow path = .ok (here, node)) (apart : here ≠ location) :
    after.find follow path = .ok (here, node) := by
  obtain ⟨isOpen, arrives, taken, allowed⟩ := find_eq_ok_iff.mp found
  exact find_eq_ok_iff.mpr ⟨isOpen, place_differAt differ arrives,
    (differ.elsewhere here apart).trans taken, allowed⟩

theorem status_eq_ok_iff {tree : FileTree} {path : Path} {node : Node} :
    tree.status path = .ok node ↔ ∃ location, tree.find true path = .ok (location, node) := by
  rw [status]
  cases tree.find true path with
  | error cause => simp [Except.map]
  | ok found =>
      obtain ⟨location, other⟩ := found
      simp [Except.map]

theorem read_eq_ok_iff {tree : FileTree} {path : Path} {content : Bytes} :
    tree.read path = .ok content ↔
      ∃ location, tree.find true path = .ok (location, .file content) := by
  rw [← status_eq_ok_iff, read]
  cases tree.status path with
  | error cause => simp [Bind.bind, Except.bind]
  | ok node => cases node <;> simp [Bind.bind, Except.bind]

/-! ## Writing a file -/

theorem writable_eq_ok_iff {tree : FileTree} (rooted : tree.Rooted) {path : Path}
    {location : Location} :
    tree.writable path = .ok location ↔
      tree.place .opening path = .ok ⟨location, false⟩ ∧ tree.LeafAt location := by
  rw [writable]
  cases arrives : tree.place .opening path with
  | error cause => simp [Bind.bind, Except.bind]
  | ok arrival =>
      obtain ⟨here, isOpen⟩ := arrival
      have walks := (place_eq_ok_iff.mp arrives).2
      simp only [Bind.bind, Except.bind]
      rcases walks.opens rooted (rooted.isDirectoryAt_origin path) with isDirectory | ⟨leaf, closed⟩
      · rw [if_pos isDirectory]
        constructor
        · intro wrong
          cases wrong
        · rintro ⟨same, leaf⟩
          cases same
          exact absurd isDirectory leaf.not_isDirectoryAt
      · rw [if_neg leaf.not_isDirectoryAt]
        obtain rfl : isOpen = false := closed
        constructor
        · intro same
          cases same
          exact ⟨rfl, leaf⟩
        · rintro ⟨same, _⟩
          cases same
          rfl

theorem LeafAt.ne_nil {tree : FileTree} {location : Location} (leaf : tree.LeafAt location) :
    location ≠ [] := by
  rintro rfl
  exact leaf.not_isDirectoryAt tree.isDirectoryAt_nil

theorem LeafAt.put_self {tree : FileTree} {location : Location} (leaf : tree.LeafAt location)
    (content : Bytes) : (tree.put location (.file content)).LeafAt location := by
  intro node taken
  rw [node?_put_self tree _ leaf.ne_nil] at taken
  exact ⟨content, (Option.some.inj taken).symm⟩

theorem LeafAt.differAt_put {tree : FileTree} {location : Location} (leaf : tree.LeafAt location)
    (content : Bytes) : DifferAt location tree (tree.put location (.file content)) where
  start := rfl
  elsewhere _ different := node?_put_of_ne tree _ different
  leafBefore := leaf
  leafAfter := leaf.put_self content

/-- A path that has been opened leads to what is kept at its place. -/
theorem find_of_opening {tree : FileTree} {path : Path} {location : Location} {content : Bytes}
    (arrives : tree.place .opening path = .ok ⟨location, false⟩)
    (taken : tree.node? location = some (.file content)) :
    tree.find true path = .ok (location, .file content) := by
  obtain ⟨walkable, walks⟩ := place_eq_ok_iff.mp arrives
  have arrives : tree.place .target path = .ok ⟨location, false⟩ :=
    place_eq_ok_iff.mpr ⟨walkable, walks.target_of_opening⟩
  exact find_eq_ok_iff.mpr ⟨false, arrives, taken, by simp⟩

theorem putNode_putNode (location : Location) (first second : Node)
    (nodes : List (Location × Node)) :
    putNode location second (putNode location first nodes) = putNode location second nodes := by
  induction nodes with
  | nil => simp [putNode]
  | cons entry rest induction =>
      obtain ⟨other, old⟩ := entry
      by_cases same : other = location
      · simp [putNode, same]
      · simp [putNode, same, induction]

theorem put_put (tree : FileTree) (location : Location) (first second : Node) :
    (tree.put location first).put location second = tree.put location second := by
  rw [put, put, put, putNode_putNode]

theorem append_put {tree : FileTree} {location : Location} (below : location ≠ [])
    (content more : Bytes) :
    (tree.put location (.file content)).append location more =
      tree.put location (.file (content ++ more)) := by
  rw [append, node?_put_self tree _ below]
  exact put_put tree location _ _

theorem read_put {tree : FileTree} (rooted : tree.Rooted) {path : Path} {location : Location}
    (writable : tree.writable path = .ok location) (content : Bytes) :
    (tree.put location (.file content)).read path = .ok content := by
  obtain ⟨arrives, leaf⟩ := (writable_eq_ok_iff rooted).mp writable
  have arrives := place_differAt (leaf.differAt_put content) arrives
  exact read_eq_ok_iff.mpr
    ⟨location, find_of_opening arrives (node?_put_self tree _ leaf.ne_nil)⟩

theorem writable_put {tree : FileTree} (rooted : tree.Rooted) {path : Path} {location : Location}
    (writable : tree.writable path = .ok location) (content : Bytes) :
    (tree.put location (.file content)).writable path = .ok location := by
  obtain ⟨arrives, leaf⟩ := (writable_eq_ok_iff rooted).mp writable
  have arrives := place_differAt (leaf.differAt_put content) arrives
  rw [FileTree.writable, arrives]
  exact if_neg (leaf.put_self content).not_isDirectoryAt

theorem writable_of_write {tree after : FileTree} {path : Path} {content : Bytes}
    (written : tree.write path content = .ok after) :
    ∃ location, tree.writable path = .ok location ∧ after = tree.put location (.file content) := by
  rw [write] at written
  cases writable : tree.writable path with
  | error cause =>
      rw [writable] at written
      cases written
  | ok location =>
      rw [writable] at written
      cases written
      exact ⟨location, rfl, rfl⟩

theorem of_copy {tree after : FileTree} {source target : Path}
    (copied : tree.copy source target = .ok after) :
    ∃ location held between content, tree.find true source = .ok (location, .file held) ∧
      tree.write target [] = .ok between ∧ between.read source = .ok content ∧
      between.write target content = .ok after := by
  rw [copy] at copied
  cases status : tree.status source with
  | error cause =>
      rw [status] at copied
      cases copied
  | ok node =>
      rw [status] at copied
      cases node with
      | directory => cases copied
      | link target => cases copied
      | file held =>
          rcases status_eq_ok_iff.mp status with ⟨location, found⟩
          cases emptied : tree.write target [] with
          | error cause =>
              rw [emptied] at copied
              cases copied
          | ok between =>
              rw [emptied] at copied
              cases reads : between.read source with
              | error cause =>
                  simp only [Bind.bind, Except.bind, reads] at copied
                  cases copied
              | ok content =>
                  simp only [Bind.bind, Except.bind, reads] at copied
                  exact ⟨location, held, between, content, found, rfl, reads, copied⟩

end FileTree

end GameExport
