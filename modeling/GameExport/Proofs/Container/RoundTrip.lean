import GameExport.Container.Packing
import GameExport.Proofs.FileTree.Writing
import GameExport.Proofs.Json.Decoding

/-! # Opening a packed container

What is packed can be opened again. Main statements: the bytes of a container encode it, and
packing files whose sizes the manifest can hold writes the bytes of the container of these files.
-/

namespace GameExport

open Json

namespace Container

/-! ## The manifest -/

theorem nat_of_lt {value : Nat} (fits : value < UInt64.size) :
    Json.nat value = .number (.natural (UInt64.ofNat value)) := if_pos fits

theorem natural_source {value : Nat} (fits : value < UInt64.size) (room : Nat) :
    Decoder.natural room (source (Json.nat value)) = some value := by
  rw [nat_of_lt fits, source, Number.literal, Decoder.natural, value?_natural]
  simp [Nat.mod_eq_of_lt fits]

theorem decodeManifestEntry_source {name : String} {size : Nat} (fits : size < UInt64.size)
    (room : Nat) :
    decodeManifestEntry (room + 1) (source (manifestEntry name size)) = some (name, size) := by
  rw [manifestEntry, decodeManifestEntry, record?_source []]
  · simp [fieldRequired, natural_source fits]
  · rfl
  · decide

/-- The sizes that a manifest can hold. A file system counts bytes in 64 bits. -/
def Countable (sizes : List (String × Nat)) : Prop := ∀ entry ∈ sizes, entry.2 < UInt64.size

theorem whole_manifest {sizes : List (String × Nat)} (countable : Countable sizes) :
    whole (.array (sizes.map fun (name, size) => manifestEntry name size)) = true := by
  rw [whole]
  refine wholeItems_map fun entry member => ?_
  simp [manifestEntry, whole, wholeFields, nat_of_lt (countable entry member)]

theorem readManifest?_manifestBytes {sizes : List (String × Nat)} (countable : Countable sizes) :
    readManifest? (manifestBytes sizes) = some sizes := by
  rw [readManifest?, manifestBytes, Decoder.runBytes?, Source.ofBytes?, Bytes.text?_ofText]
  simp only [read?_compactText (whole_manifest countable), Option.bind_eq_bind, Option.bind_some]
  exact Decoder.list_source fun entry member =>
    decodeManifestEntry_source (countable entry member) 125

/-! ## The bytes -/

theorem cut_blobs (entries : List Entry) :
    cut (entries.map fun entry => (entry.name, entry.blob.length)) (entries.flatMap (·.blob)) =
      .ok entries := by
  induction entries with
  | nil => rfl
  | cons entry rest induction =>
      have enough : ¬ (entry.blob ++ rest.flatMap (·.blob)).length < entry.blob.length := by
        rw [List.length_append]
        omega
      rw [List.map_cons, List.flatMap_cons, cut, if_neg enough, List.drop_left, List.take_left,
        induction]
      rfl

theorem length_magic : magic.length = 4 := rfl

/-- The parts that reading takes off the front of a container, one after the other. -/
structure Parts (bytes : Bytes) (length : Nat) (body : Bytes) : Prop where
  enough : ¬ bytes.length < headerLength
  marked : bytes.startsWith magic = true
  versioned : Bytes.ofLittleEndian ((bytes.drop 4).take 4) = version
  counted : Bytes.ofLittleEndian ((bytes.drop 8).take 4) = length
  follows : bytes.drop headerLength = body

theorem parts_header {length : Nat} (fits : length < UInt32.size) (body : Bytes) :
    Parts (header length ++ body) length body := by
  have split : header length ++ body =
      magic ++ (Bytes.littleEndian 4 version ++ (Bytes.littleEndian 4 length ++ body)) := by
    rw [header, List.append_assoc, List.append_assoc]
  have afterMark : (header length ++ body).drop 4 =
      Bytes.littleEndian 4 version ++ (Bytes.littleEndian 4 length ++ body) := by
    rw [split, List.drop_left' length_magic]
  have afterVersion : (header length ++ body).drop 8 = Bytes.littleEndian 4 length ++ body := by
    have further := congrArg (List.drop 4) afterMark
    rwa [List.drop_drop, List.drop_left' (Bytes.length_littleEndian 4 version)] at further
  constructor
  · rw [split]
    simp [length_magic, headerLength]
    omega
  · rw [split, Bytes.startsWith, List.take_left]
    exact beq_self_eq_true _
  · rw [afterMark, List.take_left' (by simp), Bytes.ofLittleEndian_littleEndian]
    rfl
  · rw [afterVersion, List.take_left' (by simp), Bytes.ofLittleEndian_littleEndian]
    exact Nat.mod_eq_of_lt fits
  · have further := congrArg (List.drop 4) afterVersion
    rwa [List.drop_drop, List.drop_left' (Bytes.length_littleEndian 4 length)] at further

theorem parse_encode {container : Container} (countable : Countable container.sizes)
    (fits : (manifestBytes container.sizes).length < UInt32.size) :
    parse container.encode = .ok container := by
  have parts := parts_header fits
    (manifestBytes container.sizes ++ container.entries.flatMap (·.blob))
  have room : ¬ (manifestBytes container.sizes ++
      container.entries.flatMap (·.blob)).length < (manifestBytes container.sizes).length := by
    rw [List.length_append]
    omega
  have front : ¬ ((container.encode).length < headerLength ∨
      (container.encode).startsWith magic = false) := by
    rw [encode, List.append_assoc, parts.marked]
    exact fun wrong => wrong.elim parts.enough Bool.noConfusion
  rw [parse, if_neg front, encode, List.append_assoc]
  simp only [parts.versioned, parts.counted, parts.follows, if_neg room]
  rw [List.take_left, readManifest?_manifestBytes countable, List.drop_left, sizes]
  simp [cut_blobs, Bind.bind, Except.bind]

/-! ## Packing -/

/-- Whether the entries are files of a directory, none of which is kept at the location. -/
def Listed (files : FileTree) (directory : Path) (location : Location) (entries : List Entry) :
    Prop :=
  ∀ entry ∈ entries, ∃ place, place ≠ location ∧
    files.find true (directory.child entry.name) = .ok (place, .file entry.blob)

theorem fileSizes_eq {files : FileTree} {directory : Path} {location : Location}
    {entries : List Entry} (listed : Listed files directory location entries) :
    fileSizes files directory (entries.map (·.name)) = .ok (sizes ⟨entries⟩) := by
  induction entries with
  | nil => rfl
  | cons entry rest induction =>
      obtain ⟨place, _, found⟩ := listed entry List.mem_cons_self
      have status := FileTree.status_eq_ok_iff.mpr ⟨place, found⟩
      have others := induction fun other member => listed other (List.mem_cons_of_mem _ member)
      rw [fileSizes] at others ⊢
      rw [List.map_cons, List.mapM_cons, status, others]
      rfl

theorem appendBlobs_eq {files : FileTree} {directory : Path} {location : Location}
    (leaf : files.LeafAt location) {entries : List Entry}
    (listed : Listed files directory location entries) (output : Path) (done : Bytes) :
    appendBlobs (files.put location (.file done)) directory output location (sizes ⟨entries⟩) =
      (files.put location (.file (done ++ entries.flatMap (·.blob))), .ok ()) := by
  induction entries generalizing done with
  | nil => rw [List.flatMap_nil, List.append_nil]; rfl
  | cons entry rest induction =>
      obtain ⟨place, apart, found⟩ := listed entry List.mem_cons_self
      have found := FileTree.find_differAt (leaf.differAt_put done) found apart
      have others := induction (fun other member => listed other (List.mem_cons_of_mem _ member))
        (done ++ entry.blob)
      have blob : blobAt (files.put location (.file done)) output location
          (directory.child entry.name) = .ok entry.blob := by
        simp only [blobAt, found, if_neg apart]
      rw [sizes] at others ⊢
      rw [List.map_cons]
      unfold appendBlobs
      simp only [blob, if_true]
      rw [FileTree.append_put leaf.ne_nil, others, List.flatMap_cons, List.append_assoc]

theorem pack_eq {files : FileTree} (rooted : files.Rooted) {directory output : Path}
    {location : Location} (writable : files.writable output = .ok location) {entries : List Entry}
    (listed : Listed files directory location entries)
    (fits : (manifestBytes (sizes ⟨entries⟩)).length < UInt32.size) :
    pack files (entries.map (·.name)) directory output =
      (files.put location (.file (encode ⟨entries⟩)), .ok ()) := by
  have leaf := ((FileTree.writable_eq_ok_iff rooted).mp writable).2
  rw [pack, fileSizes_eq listed]
  simp only [if_neg (Nat.not_le.mpr fits), writable]
  exact appendBlobs_eq leaf listed output _

theorem load_put {files : FileTree} (rooted : files.Rooted) {output : Path} {location : Location}
    (writable : files.writable output = .ok location) {container : Container}
    (countable : Countable container.sizes)
    (fits : (manifestBytes container.sizes).length < UInt32.size) :
    load (files.put location (.file container.encode)) output = .ok container := by
  rw [load, FileTree.read_put rooted writable]
  simp only [parse_encode countable fits]
  rfl

theorem read?_of_mem {entries : List Entry} (distinct : (entries.map (·.name)).Nodup)
    {name : String} {blob : Bytes} (member : ⟨name, blob⟩ ∈ entries) :
    read? ⟨entries⟩ name = some blob := by
  induction entries with
  | nil => cases member
  | cons entry rest induction =>
      obtain ⟨absent, distinct⟩ := List.nodup_cons.mp distinct
      rcases List.mem_cons.mp member with rfl | member
      · simp [read?]
      · have different : ¬ (entry.name == name) = true := by
          intro same
          exact absent (List.mem_map.mpr ⟨_, member, (beq_iff_eq.mp same).symm⟩)
        have others := induction distinct member
        rw [read?] at others ⊢
        rw [← others]
        exact congrArg _ (List.find?_cons_of_neg different)

end Container

end GameExport
