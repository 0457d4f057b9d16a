import GameExport.Archive.Format
import Mathlib.Data.List.Basic

/-! # Reading archives

Each number of an archive is read at the place at which it was written, and the closing record is
the last one that can be read. Main statement: whatever stands in front of an archive, reading gives
the entries that it was made of, as far as the fields of the format can hold what they say of them.
-/

namespace GameExport.Archive

/-! ## Numbers -/

theorem number_fields (numbers : List (Nat × Nat)) (index : Nat) {width value : Nat}
    (stands : numbers[index]? = some (width, value)) (fits : value < Nat.pow 256 width)
    (behind : Bytes) :
    number (fields numbers ++ behind) (fields (numbers.take index)).length width = value := by
  rcases List.getElem?_eq_some_iff.mp stands with ⟨inside, same⟩
  have split : fields numbers ++ behind = fields (numbers.take index) ++
      (Bytes.littleEndian width value ++ (fields (numbers.drop (index + 1)) ++ behind)) := by
    conv_lhs => rw [← List.take_append_drop index numbers, List.drop_eq_getElem_cons inside, same]
    rw [fields, List.flatMap_append, List.flatMap_cons, List.append_assoc, List.append_assoc]
    rfl
  rw [number, split, List.drop_left, List.take_left' (Bytes.length_littleEndian width value),
    Bytes.ofLittleEndian_littleEndian, Nat.mod_eq_of_lt fits]

/-! ## Records -/

structure Entry.Fits (entry : Entry) : Prop where
  name : (Bytes.ofText entry.name).length < 65536
  content : entry.content.length < 4294967296

theorem readRecord?_record {entry : Entry} (fits : entry.Fits) (behind : Bytes) :
    readRecord? (record entry ++ behind) = some entry := by
  let numbers : List (Nat × Nat) := (4, recordMark) :: (2, formatVersion) :: description entry
  let name : Bytes := Bytes.ofText entry.name
  have split : record entry ++ behind =
      fields numbers ++ (name ++ (entry.content ++ behind)) := by
    rw [record, List.append_assoc, List.append_assoc]
  have length : (fields numbers).length = 30 := rfl
  rw [split]
  generalize whole : fields numbers ++ (name ++ (entry.content ++ behind)) = bytes
  have mark : number bytes 0 4 = recordMark :=
    whole ▸ number_fields numbers 0 rfl (by decide) _
  have method : number bytes 8 2 = 0 :=
    whole ▸ number_fields numbers 3 rfl (by decide) _
  have size : number bytes 22 4 = entry.content.length :=
    whole ▸ number_fields numbers 8 rfl fits.content _
  have nameLength : number bytes 26 2 = name.length :=
    whole ▸ number_fields numbers 9 rfl fits.name _
  have extra : number bytes 28 2 = 0 :=
    whole ▸ number_fields numbers 10 rfl (by decide) _
  have afterFields : bytes.drop 30 = name ++ (entry.content ++ behind) := by
    rw [← whole, List.drop_left' length]
  have afterName : bytes.drop (30 + name.length) = entry.content ++ behind := by
    rw [← List.drop_drop, afterFields, List.drop_left]
  have enough : 30 + name.length + entry.content.length ≤ bytes.length := by
    rw [← whole]
    simp only [List.length_append, length]
    omega
  rw [readRecord?, if_pos ⟨mark, method⟩]
  simp only [nameLength, extra, size, Nat.add_zero, if_pos enough, afterFields, afterName,
    List.take_left]
  rw [Bytes.text?_ofText]
  rfl

/-! ## The directory -/

theorem readDirectory?_directory {body : Bytes} {entries : List Entry} {place : Nat}
    {more : Bytes} (stand : body.drop place = records entries ++ more)
    (fits : ∀ entry ∈ entries, entry.Fits)
    (bound : place + (records entries).length < 4294967296) (behind : Bytes) :
    readDirectory? body entries.length (directory place entries ++ behind) = some entries := by
  induction entries generalizing place with
  | nil => rfl
  | cons entry rest induction =>
      have entryFits := fits entry List.mem_cons_self
      let numbers : List (Nat × Nat) := (4, directoryMark) :: (2, formatVersion) ::
        (2, formatVersion) :: description entry ++ [(2, 0), (2, 0), (2, 0), (4, 0), (4, place)]
      let name : Bytes := Bytes.ofText entry.name
      rw [records, List.flatMap_cons, List.length_append] at bound
      have split : directory place (entry :: rest) ++ behind = fields numbers ++
          (name ++ (directory (place + (record entry).length) rest ++ behind)) := by
        rw [directory, directoryEntry, List.append_assoc, List.append_assoc]
      rw [split]
      generalize whole : fields numbers ++
        (name ++ (directory (place + (record entry).length) rest ++ behind)) = bytes
      -- The fields are looked up by their places in `numbers`.
      have mark : number bytes 0 4 = directoryMark :=
        whole ▸ number_fields numbers 0 rfl (by decide) _
      have nameLength : number bytes 28 2 = name.length :=
        whole ▸ number_fields numbers 10 rfl entryFits.name _
      have extra : number bytes 30 2 = 0 :=
        whole ▸ number_fields numbers 11 rfl (by decide) _
      have remark : number bytes 32 2 = 0 :=
        whole ▸ number_fields numbers 12 rfl (by decide) _
      have placed : number bytes 42 4 = place := by
        have inside : place < Nat.pow 256 4 := Nat.lt_of_le_of_lt (Nat.le_add_right _ _) bound
        exact whole ▸ number_fields numbers 16 rfl inside _
      have length : (fields numbers ++ name).length = 46 + name.length := by
        rw [List.length_append]
        rfl
      have afterEntry : bytes.drop (46 + name.length) =
          directory (place + (record entry).length) rest ++ behind := by
        rw [← whole, ← List.append_assoc, List.drop_left' length]
      have stands : body.drop place = record entry ++ (records rest ++ more) := by
        rw [stand, records, List.flatMap_cons, List.append_assoc, records]
      have others : readDirectory? body rest.length
          (directory (place + (record entry).length) rest ++ behind) = some rest := by
        apply induction
        · rw [← List.drop_drop, stands, List.drop_left]
        · exact fun other member => fits other (List.mem_cons_of_mem _ member)
        · rw [records]
          omega
      rw [List.length_cons, readDirectory?, if_pos mark]
      simp only [placed, stands, nameLength, extra, remark, Nat.add_zero, afterEntry,
        readRecord?_record entryFits, others]
      rfl

/-! ## The closing record -/

structure Fits (entries : List Entry) : Prop where
  count : entries.length < 65536
  entry : ∀ entry ∈ entries, entry.Fits
  records : (records entries).length < 4294967296
  directory : (directory 0 entries).length < 4294967296

theorem length_closing (count length place : Nat) :
    (closing count length place).length = closingLength := rfl

theorem readClosing?_closing {entries : List Entry} (fits : Fits entries) (front : Bytes) :
    readClosing? (front ++ encode entries)
      ((front ++ (records entries ++ directory 0 entries)).length)
      (closing entries.length (directory 0 entries).length (records entries).length) =
        some entries := by
  let numbers : List (Nat × Nat) := [(4, closingMark), (2, 0), (2, 0), (2, entries.length),
    (2, entries.length), (4, (directory 0 entries).length), (4, (records entries).length), (2, 0)]
  have whole : closing entries.length (directory 0 entries).length (records entries).length =
      fields numbers ++ [] := (List.append_nil _).symm
  have body : (front ++ encode entries).drop front.length = records entries ++
      (directory 0 entries ++ closing entries.length (directory 0 entries).length
        (records entries).length) := by
    rw [List.drop_left, encode, List.append_assoc]
  have long := length_closing entries.length (directory 0 entries).length (records entries).length
  generalize closing entries.length (directory 0 entries).length (records entries).length = last
    at whole body long ⊢
  have count : number last 10 2 = entries.length :=
    whole ▸ number_fields numbers 4 rfl fits.count _
  have length : number last 12 4 = (directory 0 entries).length :=
    whole ▸ number_fields numbers 5 rfl fits.directory _
  have start : number last 16 4 = (records entries).length :=
    whole ▸ number_fields numbers 6 rfl fits.records _
  have remark : number last 20 2 = 0 :=
    whole ▸ number_fields numbers 7 rfl (by decide) _
  rw [readClosing?]
  simp only [count, length, start, remark]
  rw [if_neg (by omega)]
  split
  · rename_i none
    rw [List.length_eq_zero_iff.mp none]
  · have place : (front ++ (records entries ++ directory 0 entries)).length -
        ((records entries).length + (directory 0 entries).length) = front.length := by
      simp only [List.length_append]
      omega
    rw [if_pos (by simp only [List.length_append]; omega), place, body, List.drop_left]
    exact readDirectory?_directory rfl fits.entry (by simpa using fits.records) last

theorem closingPlaces_eq (found : List (Nat × Bytes)) (place : Nat) (bytes : Bytes) :
    ∃ later, closingPlaces found place bytes = later ++ found ∧
      ∀ entry ∈ later, entry.2.length ≤ bytes.length := by
  induction bytes generalizing found place with
  | nil => exact ⟨[], rfl, nofun⟩
  | cons byte rest induction =>
      rw [closingPlaces]
      split
      · rcases induction ((place, byte :: rest) :: found) (place + 1) with ⟨later, same, short⟩
        refine ⟨later ++ [(place, byte :: rest)], by simp [same], fun entry member => ?_⟩
        rcases List.mem_append.mp member with member | last
        · exact Nat.le_succ_of_le (short entry member)
        · cases List.mem_singleton.mp last
          exact Nat.le_refl _
      · rcases induction found (place + 1) with ⟨later, same, short⟩
        exact ⟨later, same, fun entry member => Nat.le_succ_of_le (short entry member)⟩

theorem closingPlaces_append (found : List (Nat × Bytes)) (place : Nat) (front back : Bytes) :
    ∃ before, closingPlaces found place (front ++ back) =
      closingPlaces before (place + front.length) back := by
  induction front generalizing found place with
  | nil => exact ⟨found, rfl⟩
  | cons byte rest induction =>
      rw [List.cons_append, closingPlaces, List.length_cons, Nat.add_comm rest.length,
        ← Nat.add_assoc]
      exact induction _ _

theorem readClosing?_eq_none {bytes closing : Bytes} (short : closing.length < closingLength)
    (place : Nat) : readClosing? bytes place closing = none := by
  rw [readClosing?]
  exact if_pos (Nat.lt_of_lt_of_le short (Nat.le_add_right _ _))

/-- An archive is read with the entries that it was made of, whatever stands in front of it. -/
theorem decode?_append_encode {entries : List Entry} (fits : Fits entries) (front : Bytes) :
    decode? (front ++ encode entries) = some entries := by
  have reads := readClosing?_closing fits front
  have split : front ++ encode entries = front ++ (records entries ++ directory 0 entries) ++
      closing entries.length (directory 0 entries).length (records entries).length := by
    rw [encode, ← List.append_assoc]
  have long := length_closing entries.length (directory 0 entries).length (records entries).length
  have marked : number (closing entries.length (directory 0 entries).length
      (records entries).length) 0 4 = closingMark := by
    have mark := number_fields [(4, closingMark), (2, 0), (2, 0), (2, entries.length),
      (2, entries.length), (4, (directory 0 entries).length), (4, (records entries).length),
      (2, 0)] 0 rfl (by decide) []
    rwa [List.append_nil] at mark
  rw [decode?]
  generalize closing entries.length (directory 0 entries).length (records entries).length = last
    at reads split long marked
  cases last with
  | nil => cases long
  | cons byte rest =>
      rcases closingPlaces_append [] 0 (front ++ (records entries ++ directory 0 entries))
        (byte :: rest) with ⟨before, here⟩
      rw [← split, closingPlaces, if_pos (by simpa using marked), Nat.zero_add] at here
      rcases closingPlaces_eq _ _ rest with ⟨later, places, short⟩
      rw [here, places, List.findSome?_append,
        (List.findSome?_eq_none_iff (l := later)).mpr, Option.none_or]
      · simp only [List.findSome?_cons, reads]
      · intro entry member
        have inside := short entry member
        rw [List.length_cons] at long
        exact readClosing?_eq_none (by omega) _

/-! ## Formats -/

/-- A format of archives that are read back, whatever stands in front of them. -/
structure Format where
  encode : List Entry → Bytes
  decode? : Bytes → Option (List Entry)
  /-- Whether the fields of the format can hold what they say of entries. -/
  CanHold : List Entry → Prop
  decode?_append : ∀ {entries : List Entry}, CanHold entries → ∀ front : Bytes,
    decode? (front ++ encode entries) = some entries

def stored : Format where
  encode := encode
  decode? := decode?
  CanHold := Fits
  decode?_append := decode?_append_encode

end GameExport.Archive
