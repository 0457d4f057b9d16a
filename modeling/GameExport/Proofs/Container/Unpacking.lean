import GameExport.Proofs.Container.RoundTrip

/-! # Opening what was packed

Packing a list of files and opening the result gives the files back. Main statement: unless the
output cannot be opened for writing, the container that is read has the names of the list in their
order, each with the length of its file, and under each name the bytes of its file, whatever the
names are and however often they are listed.
-/

namespace GameExport

namespace FileTree

/-- Whether a path leads to what is overwritten when another path is opened for writing. -/
def Aliases (tree : FileTree) (output path : Path) : Prop :=
  ∃ location node, tree.writable output = .ok location ∧
    tree.find true path = .ok (location, node)

end FileTree

namespace Container

def ofNames (contents : String → Bytes) (names : List String) : Container :=
  ⟨names.map fun name => ⟨name, contents name⟩⟩

variable {contents : String → Bytes} {names : List String}

theorem map_name_ofNames (contents : String → Bytes) (names : List String) :
    (ofNames contents names).entries.map (·.name) = names := by
  rw [ofNames, List.map_map]
  exact List.map_id _

theorem sizes_ofNames (contents : String → Bytes) (names : List String) :
    (ofNames contents names).sizes = names.map fun name => (name, (contents name).length) := by
  rw [ofNames, sizes, List.map_map]
  rfl

theorem read?_ofNames (contents : String → Bytes) (names : List String) (name : String) :
    (ofNames contents names).read? name = if name ∈ names then some (contents name) else none := by
  induction names with
  | nil => rfl
  | cons first rest induction =>
      by_cases same : first = name
      · subst same
        simp [ofNames, read?]
      · have step : (ofNames contents (first :: rest)).read? name =
            (ofNames contents rest).read? name := by
          simp [ofNames, read?, same]
        rw [step, induction]
        simp [Ne.symm same]

theorem countable_ofNames (countable : ∀ name ∈ names, (contents name).length < UInt64.size) :
    Countable (ofNames contents names).sizes := by
  intro size counted
  rw [sizes_ofNames] at counted
  rcases List.mem_map.mp counted with ⟨name, member, rfl⟩
  exact countable name member

section Files

variable {files : FileTree} {directory output : Path}

/-- Files that can be read and are not overwritten by the container are found as listed. -/
theorem listed_of_read {location : Location} (writable : files.writable output = .ok location)
    (readable : ∀ name ∈ names, files.read (directory.child name) = .ok (contents name))
    (apart : ∀ name ∈ names, ¬ files.Aliases output (directory.child name)) :
    Listed files directory location (ofNames contents names).entries := by
  intro entry packed
  rcases List.mem_map.mp packed with ⟨name, member, rfl⟩
  rcases FileTree.read_eq_ok_iff.mp (readable name member) with ⟨place, found⟩
  refine ⟨place, ?_, found⟩
  rintro rfl
  exact apart name member ⟨place, _, writable, found⟩

theorem fileSizes_of_read
    (readable : ∀ name ∈ names, files.read (directory.child name) = .ok (contents name)) :
    fileSizes files directory names = .ok (ofNames contents names).sizes := by
  induction names with
  | nil => rfl
  | cons first rest induction =>
      have others := induction fun name member => readable name (List.mem_cons_of_mem _ member)
      rcases FileTree.read_eq_ok_iff.mp (readable first List.mem_cons_self) with ⟨place, found⟩
      have status := FileTree.status_eq_ok_iff.mpr ⟨place, found⟩
      rw [fileSizes] at others ⊢
      rw [List.mapM_cons, status, others]
      rfl

/-- Files that can be read are packed, and opening the container gives them back: the names of the
list in their order, each with the length of its file, and for each name the bytes of its file.
Nothing is packed only where the output cannot be opened for writing. A file system counts the bytes
of a file in 64 bits. -/
theorem load_pack (rooted : files.Rooted)
    (readable : ∀ name ∈ names, files.read (directory.child name) = .ok (contents name))
    (apart : ∀ name ∈ names, ¬ files.Aliases output (directory.child name))
    (countable : ∀ name ∈ names, (contents name).length < UInt64.size)
    (fits : (manifestBytes (names.map fun name => (name, (contents name).length))).length <
      UInt32.size) :
    (∃ cause, files.writable output = .error cause ∧
      pack files names directory output = (files, .error (.io output cause))) ∨
    ∃ packed container, (∃ location, files.writable output = .ok location) ∧
      pack files names directory output = (packed, .ok ()) ∧
      load packed output = .ok container ∧
      container.sizes = names.map (fun name => (name, (contents name).length)) ∧
      ∀ name, container.read? name = if name ∈ names then some (contents name) else none := by
  rw [← sizes_ofNames] at fits
  cases writable : files.writable output with
  | error cause =>
      refine .inl ⟨cause, rfl, ?_⟩
      rw [pack, fileSizes_of_read readable]
      simp only [if_neg (Nat.not_le.mpr fits), writable]
  | ok location =>
      have packed := pack_eq rooted writable (listed_of_read writable readable apart) fits
      rw [map_name_ofNames] at packed
      have loaded := load_put rooted writable (countable_ofNames countable) fits
      exact .inr ⟨_, _, ⟨location, rfl⟩, packed, loaded, sizes_ofNames contents names,
        read?_ofNames contents names⟩

end Files

/-! ## Awkward names -/

def scraps : FileTree where
  nodes := [(["scraps"], .directory), (["scraps", "empty"], .file []),
    (["scraps", "\"quoted\"\n"], .file [0, 255])]
  start := []

def scrapContents (name : String) : Bytes := if name = "empty" then [] else [0, 255]

theorem load_pack_scraps :
    ∃ packed container,
      pack scraps ["empty", "\"quoted\"\n", "empty"] ⟨"/scraps"⟩ ⟨"/scraps/gam.egd"⟩ =
        (packed, .ok ()) ∧
      load packed ⟨"/scraps/gam.egd"⟩ = .ok container ∧
      container.sizes = [("empty", 0), ("\"quoted\"\n", 2), ("empty", 0)] ∧
      container.read? "\"quoted\"\n" = some [0, 255] ∧ container.read? "gam.egd" = none := by
  have writable : scraps.writable ⟨"/scraps/gam.egd"⟩ = .ok ["scraps", "gam.egd"] :=
    eq_ok_of_toOption (by decide +kernel)
  have rooted : scraps.Rooted := ⟨by decide +kernel, by decide +kernel⟩
  have readable : ∀ name ∈ ["empty", "\"quoted\"\n", "empty"],
      scraps.read (Path.child ⟨"/scraps"⟩ name) = .ok (scrapContents name) := by
    intro name member
    refine eq_ok_of_toOption ?_
    revert name
    decide +kernel
  have apart : ∀ name ∈ ["empty", "\"quoted\"\n", "empty"],
      ¬ scraps.Aliases ⟨"/scraps/gam.egd"⟩ (Path.child ⟨"/scraps"⟩ name) := by
    rintro name member ⟨location, node, opened, found⟩
    rw [writable] at opened
    cases opened
    rcases FileTree.find_eq_ok_iff.mp found with ⟨_, _, taken, _⟩
    have free : scraps.node? ["scraps", "gam.egd"] = none := by decide +kernel
    rw [free] at taken
    cases taken
  rcases load_pack rooted readable apart (by decide) (by decide +kernel) with
    ⟨cause, refused, _⟩ | ⟨packed, container, _, packs, loads, sizes, reads⟩
  · rw [writable] at refused
    cases refused
  · exact ⟨packed, container, packs, loads, sizes, reads _, reads _⟩

end Container

end GameExport
