import GameExport.Proofs.Container.RoundTrip
import GameExport.Proofs.FileTree.Flat

/-! # What a packed container holds

Main statement: a directory of files that is packed into a container in the same directory leaves
a container with every file, provided that no file of the name of the container was there.
-/

namespace GameExport

open FileTree

namespace Container

theorem of_pack {files after : FileTree} {names : List String} {directory output : Path}
    (packed : pack files names directory output = (after, .ok ())) :
    ∃ sizes location, fileSizes files directory names = .ok sizes ∧
      (manifestBytes sizes).length < UInt32.size ∧ files.writable output = .ok location ∧
      appendBlobs
        (files.put location
          (.file (header (manifestBytes sizes).length ++ manifestBytes sizes)))
        directory output location sizes = (after, .ok ()) := by
  rw [pack] at packed
  cases measured : fileSizes files directory names with
  | error cause =>
      rw [measured] at packed
      cases packed
  | ok sizes =>
      simp only [measured] at packed
      split at packed
      · cases packed
      · rename_i fits
        cases writable : files.writable output with
        | error cause =>
            rw [writable] at packed
            cases packed
        | ok location =>
            rw [writable] at packed
            exact ⟨sizes, location, rfl, Nat.lt_of_not_le fits, rfl, packed⟩

theorem appendBlobs_puts {files after : FileTree} {directory output : Path} {location : Location}
    (below : location ≠ []) {sizes : List (String × Nat)} {done : Bytes}
    {result : Except PackageError Unit}
    (appended : appendBlobs (files.put location (.file done)) directory output location sizes =
      (after, result)) : ∃ bytes, after = files.put location (.file bytes) := by
  induction sizes generalizing done with
  | nil =>
      cases appended
      exact ⟨done, rfl⟩
  | cons entry rest induction =>
      rcases entry with ⟨name, size⟩
      unfold appendBlobs at appended
      split at appended
      · cases appended
        exact ⟨done, rfl⟩
      · rename_i content _
        rw [append_put below] at appended
        dsimp only at appended
        split at appended
        · exact induction appended
        · cases appended
          exact ⟨done ++ content, rfl⟩

theorem status_of_fileSizes {files : FileTree} {directory : Path} {names : List String}
    {sizes : List (String × Nat)} (measured : fileSizes files directory names = .ok sizes) :
    ∀ name ∈ names, ∃ node, files.status (directory.child name) = .ok node := by
  induction names generalizing sizes with
  | nil =>
      intro name member
      cases member
  | cons first rest induction =>
      rw [fileSizes, List.mapM_cons] at measured
      cases status : files.status (directory.child first) with
      | error cause =>
          rw [status] at measured
          cases measured
      | ok node =>
          cases further : fileSizes files directory rest with
          | error cause =>
              rw [fileSizes] at further
              rw [status, further] at measured
              cases node <;> cases measured
          | ok others =>
              intro name member
              rcases List.mem_cons.mp member with rfl | member
              · exact ⟨node, status⟩
              · exact induction further name member

def entriesOf (contents : String → Option Bytes) (names : List String) : List Entry :=
  names.map fun name => ⟨name, (contents name).getD []⟩

theorem map_name_entriesOf (contents : String → Option Bytes) (names : List String) :
    (entriesOf contents names).map (·.name) = names := by
  rw [entriesOf, List.map_map]
  exact List.map_id _

theorem length_blob_le {container : Container} {entry : Entry}
    (member : entry ∈ container.entries) : entry.blob.length ≤ container.encode.length := by
  have part : entry.blob.length ≤ (container.entries.flatMap (·.blob)).length := by
    rcases List.append_of_mem member with ⟨before, after, same⟩
    rw [same, List.flatMap_append, List.flatMap_cons]
    simp only [List.length_append]
    omega
  rw [encode]
  simp only [List.length_append]
  omega

theorem load_of_read {files : FileTree} {path : Path} {container : Container}
    (reads : files.read path = .ok container.encode)
    (small : container.encode.length < UInt64.size)
    (fits : (manifestBytes container.sizes).length < UInt32.size) :
    load files path = .ok container := by
  have countable : Countable container.sizes := by
    intro size counted
    rcases List.mem_map.mp counted with ⟨entry, member, rfl⟩
    exact Nat.lt_of_le_of_lt (length_blob_le member) small
  rw [load, reads]
  simp only [parse_encode countable fits]
  rfl

end Container

namespace FileTree.FlatDirectory

open Container

variable {directory : Path} {here : Location} {contents : String → Option Bytes} {tree : FileTree}

theorem listed (flat : FlatDirectory directory here contents tree) {names : List String}
    {output : String} {sizes : List (String × Nat)}
    (measured : fileSizes tree directory names = .ok sizes)
    (areNames : ∀ name ∈ names, IsName name) (free : output ∉ names) :
    Listed tree directory (here ++ [output]) (entriesOf contents names) := by
  intro entry packed
  rcases List.mem_map.mp packed with ⟨name, member, rfl⟩
  have apart : name ≠ output := by
    rintro rfl
    exact free member
  rcases status_of_fileSizes measured name member with ⟨node, status⟩
  rcases status_eq_ok_iff.mp status with ⟨location, found⟩
  rcases flat.find_eq (areNames name member) found with ⟨rfl, content, held, rfl⟩
  refine ⟨here ++ [name], by simpa using apart, ?_⟩
  rw [found, held]
  rfl

/-- Packing a directory writes one file there. If none was there before, it is the container of
the files. -/
theorem pack_puts (flat : FlatDirectory directory here contents tree) {names : List String}
    {output : String} {after : FileTree} (areNames : ∀ name ∈ names, IsName name)
    (isName : IsName output)
    (packed : pack tree names directory (directory.child output) = (after, .ok ())) :
    ∃ bytes, after = tree.put (here ++ [output]) (.file bytes) ∧
      tree.place .opening (directory.child output) = .ok ⟨here ++ [output], false⟩ ∧
      (output ∉ names →
        bytes = encode ⟨entriesOf contents names⟩ ∧
          (manifestBytes (sizes ⟨entriesOf contents names⟩)).length < UInt32.size) := by
  rcases of_pack packed with ⟨measures, location, measured, fits, writable, appended⟩
  obtain rfl : location = here ++ [output] := flat.writable_eq isName writable
  rcases appendBlobs_puts (by simp) appended with ⟨bytes, puts⟩
  have opens := ((writable_eq_ok_iff flat.kept.rooted).mp writable).1
  refine ⟨bytes, puts, opens, fun free => ?_⟩
  have listed := flat.listed measured areNames free
  have expected := fileSizes_eq listed
  rw [map_name_entriesOf, measured] at expected
  cases expected
  have whole := pack_eq flat.kept.rooted writable listed fits
  rw [map_name_entriesOf, packed] at whole
  have same : tree.put (here ++ [output]) (.file bytes) =
      tree.put (here ++ [output]) (.file (encode ⟨entriesOf contents names⟩)) :=
    puts.symm.trans (congrArg Prod.fst whole)
  have below : here ++ [output] ≠ [] := by simp
  have taken := node?_put_self tree (.file bytes) below
  rw [same, node?_put_self tree _ below] at taken
  cases taken
  exact ⟨rfl, fits⟩

end FileTree.FlatDirectory

end GameExport
