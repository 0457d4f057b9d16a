import GameExport.Toml.Number

/-! # Reading settings files

A settings file is lines: values under names, and headers that open the table in which the
values after them stand.
-/

namespace GameExport.Toml

def nestingLimit : Nat := 80

mutual
def readValue : (steps room : Nat) → List Char → Option (Value × List Char)
  | 0, _, _ => none
  | steps + 1, room, text =>
      match text with
      | '"' :: _ => (string? text).map fun (value, rest) => (.text value, rest)
      | '\x27' :: _ => (string? text).map fun (value, rest) => (.text value, rest)
      | '[' :: rest =>
          match room with
          | 0 => none
          | room + 1 => do
              let (items, rest) ← readItems steps room rest
              pure (.array items, rest)
      | '\x7b' :: rest =>
          match room with
          | 0 => none
          | room + 1 => do
              let (fields, rest) ← readFields steps room [] rest
              pure (.table .inline fields, rest)
      | text => do
          let word := takeWord text
          pure (← word? word, text.drop word.length)

def readItems : (steps room : Nat) → List Char → Option (List Value × List Char)
  | 0, _, _ => none
  | steps + 1, room, text =>
      match skipLines text.length.succ text with
      | ']' :: rest => some ([], rest)
      | text => do
          let (item, rest) ← readValue steps room text
          match skipLines rest.length.succ rest with
          | ',' :: rest => do
              let (items, rest) ← readItems steps room rest
              pure (item :: items, rest)
          | ']' :: rest => pure ([item], rest)
          | _ => none

def readFields : (steps room : Nat) → Fields → List Char → Option (Fields × List Char)
  | 0, _, _, _ => none
  | steps + 1, room, before, text =>
      match skipLines text.length.succ text with
      | '\x7d' :: rest => some (before, rest)
      | text => do
          let (path, rest) ← name? text
          match skipLines rest.length.succ rest with
          | '=' :: rest => do
              let (value, rest) ← readValue steps room (skipLines rest.length.succ rest)
              let fields ← addValue path.dropLast (path.getLast?.getD "") value
                ⟨.declared, before⟩
              match skipLines rest.length.succ rest with
              | ',' :: rest => readFields steps room fields rest
              | '\x7d' :: rest => pure (fields, rest)
              | _ => none
          | _ => none
end

/-- A file while it is read: the whole table, and where new values go. -/
structure Reading where
  fields : Fields
  current : List String

def readLine (reading : Reading) (text : List Char) : Option (Reading × List Char) := do
  match text with
  | '[' :: '[' :: rest => do
      let (path, rest) ← name? rest
      match rest with
      | ']' :: ']' :: rest =>
          let fields ← appendTable path.dropLast (path.getLast?.getD "") reading.fields
          pure (⟨fields, path⟩, rest)
      | _ => none
  | '[' :: rest => do
      let (path, rest) ← name? rest
      match rest with
      | ']' :: rest =>
          let fields ← declareTable path.dropLast (path.getLast?.getD "") reading.fields
          pure (⟨fields, path⟩, rest)
      | _ => none
  | text => do
      let (path, rest) ← name? text
      match rest with
      | '=' :: rest => do
          let (value, rest) ← readValue rest.length.succ nestingLimit (skipBlanks rest)
          let fields ← reach false
            (addValue path.dropLast (path.getLast?.getD "") value)
            reading.current ⟨.declared, reading.fields⟩
          pure (⟨fields, reading.current⟩, rest)
      | _ => none

def readLines : (steps : Nat) → Reading → List Char → Option Fields
  | 0, _, _ => none
  | steps + 1, reading, text =>
      match skipLines text.length.succ text with
      | [] => some reading.fields
      | text => do
          let (reading, rest) ← readLine reading text
          readLines steps reading (← finishLine? rest)

/-- The table that a text holds. A mark of the byte order in front is skipped. -/
def read? (text : String) : Option Value := do
  let chars := match text.toList with
    | '\uFEFF' :: rest => rest
    | chars => chars
  pure (.table .declared (← readLines chars.length.succ ⟨[], []⟩ chars))

abbrev Decoder (α : Type) := Value → Option α

namespace Decoder

def text : Decoder String
  | .text value => some value
  | _ => none

def natural : Decoder Nat
  | .integer value => if 0 ≤ value ∧ value < UInt64.size then some value.toNat else none
  | _ => none

def list {α : Type} (item : Decoder α) : Decoder (List α)
  | .array items => items.mapM item
  | .tables items => items.mapM item
  | _ => none

end Decoder

/-- The fields of a record, one slot for each declared name. A record is a table, or an array
of the fields in order. A table is looked through to its end, an array only as far as there are
names. A time counts as a table with none of the names. -/
def Value.record? (names : List String) : Value → Option (List (Option Value))
  | .table _ fields =>
      if fields.all fun (name, value) => names.contains name || value.isKept then
        some (names.map fun name => fields.lookup name)
      else none
  | .time => some (names.map fun _ => none)
  | .array items => some (names.zipIdx.map fun (_, place) => items[place]?)
  | .tables items => some (names.zipIdx.map fun (_, place) => items[place]?)
  | _ => none

def fieldOr {α : Type} (default : α) (decoder : Decoder α) : Option Value → Option α
  | none => some default
  | some value => decoder value

end GameExport.Toml
