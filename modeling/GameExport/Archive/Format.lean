import GameExport.Archive.Checksum

/-! # The format of archives

An archive is a record for each entry, each followed by the content, then a directory of all
records, then a closing record that says where the directory is. Entries are stored as they
are; an archiver may as well compress them, as long as a reader finds the same entries. A reader
starts from the closing record at the end, so anything may stand in front of an archive, and a
remark or anything else behind it.
-/

namespace GameExport.Archive

/-- One file of an archive. Its name has `/` between its parts. -/
structure Entry where
  name : String
  content : Bytes
  deriving DecidableEq, Repr

def fields (numbers : List (Nat × Nat)) : Bytes :=
  numbers.flatMap fun (width, value) => Bytes.littleEndian width value

def recordMark : Nat := 0x04034B50

def directoryMark : Nat := 0x02014B50

def closingMark : Nat := 0x06054B50

def formatVersion : Nat := 20

def textFlag : Nat := 0x800

def firstDay : Nat := 33

def description (entry : Entry) : List (Nat × Nat) :=
  [(2, textFlag), (2, 0), (2, 0), (2, firstDay), (4, (checksum entry.content).toNat),
    (4, entry.content.length), (4, entry.content.length),
    (2, (Bytes.ofText entry.name).length), (2, 0)]

def record (entry : Entry) : Bytes :=
  fields ((4, recordMark) :: (2, formatVersion) :: description entry) ++
    Bytes.ofText entry.name ++ entry.content

def records (entries : List Entry) : Bytes := entries.flatMap record

def directoryEntry (place : Nat) (entry : Entry) : Bytes :=
  fields ((4, directoryMark) :: (2, formatVersion) :: (2, formatVersion) ::
    description entry ++ [(2, 0), (2, 0), (2, 0), (4, 0), (4, place)]) ++
    Bytes.ofText entry.name

def directory : (place : Nat) → List Entry → Bytes
  | _, [] => []
  | place, entry :: rest =>
      directoryEntry place entry ++ directory (place + (record entry).length) rest

def closing (count length place : Nat) : Bytes :=
  fields [(4, closingMark), (2, 0), (2, 0), (2, count), (2, count), (4, length), (4, place),
    (2, 0)]

def closingLength : Nat := 22

def encode (entries : List Entry) : Bytes :=
  let records := records entries
  let directory := directory 0 entries
  records ++ directory ++ closing entries.length directory.length records.length

def number (bytes : Bytes) (place width : Nat) : Nat :=
  Bytes.ofLittleEndian ((bytes.drop place).take width)

def readRecord? (bytes : Bytes) : Option Entry := do
  if number bytes 0 4 = recordMark ∧ number bytes 8 2 = 0 then
    let nameLength := number bytes 26 2
    let start := 30 + nameLength + number bytes 28 2
    let size := number bytes 22 4
    if start + size ≤ bytes.length then
      pure ⟨← Bytes.text? ((bytes.drop 30).take nameLength), (bytes.drop start).take size⟩
    else none
  else none

def readDirectory? (body : Bytes) : (count : Nat) → Bytes → Option (List Entry)
  | 0, _ => some []
  | count + 1, bytes =>
      if number bytes 0 4 = directoryMark then do
        let entry ← readRecord? (body.drop (number bytes 42 4))
        let length := 46 + number bytes 28 2 + number bytes 30 2 + number bytes 32 2
        pure (entry :: (← readDirectory? body count (bytes.drop length)))
      else none

/-- The entries of an archive by its closing record, which starts the bytes `closing` at a
place. The record ends with a remark, which has to be there whole. -/
def readClosing? (bytes : Bytes) (place : Nat) (closing : Bytes) : Option (List Entry) :=
  let count := number closing 10 2
  let start := number closing 16 4
  let length := number closing 12 4
  if closing.length < closingLength + number closing 20 2 then none
  else if count = 0 then some []
  else if start + length ≤ place then
    let body := bytes.drop (place - (start + length))
    readDirectory? body count (body.drop start)
  else none

/-- The places with the mark of a closing record, the last one first, each with the bytes from
there on. `found` are those in front of the given place. -/
def closingPlaces (found : List (Nat × Bytes)) (place : Nat) : Bytes → List (Nat × Bytes)
  | [] => found
  | byte :: rest =>
      let isMarked := number (byte :: rest) 0 4 = closingMark
      closingPlaces (if isMarked then (place, byte :: rest) :: found else found) (place + 1) rest

/-- The entries of an archive. Of several closing records the last one counts that can be
read. -/
def decode? (bytes : Bytes) : Option (List Entry) :=
  (closingPlaces [] 0 bytes).findSome? fun (place, closing) => readClosing? bytes place closing

def frontLength (count : Nat) : Bytes → Nat
  | [] => count
  | byte :: rest =>
      let mark := number (byte :: rest) 0 4
      if mark = recordMark ∨ mark = closingMark then count else frontLength (count + 1) rest

def front (bytes : Bytes) : Bytes := bytes.take (frontLength 0 bytes)

end GameExport.Archive
