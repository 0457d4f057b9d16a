import GameExport.Json.Reader
import GameExport.Json.Sorted

/-! # Decoding documents

A decoder turns a document into a typed value. It is given the room that is left: how deep
the document may still nest. Entering an array or an object takes one level of it. Parts of
a document that no decoder asks for are not looked at.
-/

namespace GameExport.Json

def nestingLimit : Nat := 127

/-- Stands in messages for what is wrong with a malformed document. -/
def unreadable : String := "<parser>"

abbrev Decoder (α : Type) := (room : Nat) → Source → Option α

namespace Decoder

def text : Decoder String
  | _, .string symbols => Symbol.text? symbols
  | _, _ => none

def flag : Decoder Bool
  | _, .bool value => some value
  | _, _ => none

def natural : Decoder Nat
  | _, .number literal =>
      match literal.value? with
      | some (.natural value) => some value.toNat
      | _ => none
  | _, _ => none

def list {α : Type} (item : Decoder α) : Decoder (List α)
  | room + 1, .array items => items.mapM (item room)
  | _, _ => none

def nullable {α : Type} (value : Decoder α) : Decoder (Option α)
  | _, .null => some none
  | room, source => (value room source).map some

def choice {α : Type} (ofName? : String → Option α) : Decoder α
  | _, .string symbols => (Symbol.text? symbols).bind ofName?
  | _ + 1, .object [(symbols, .null)] => (Symbol.text? symbols).bind ofName?
  | _, _ => none

def any : Decoder Json := Source.value?

def run? {α : Type} (decoder : Decoder α) (text : String) : Option α := do
  decoder nestingLimit (← Source.read? text)

end Decoder

def valuesOf (name : String) (fields : List (String × Source)) : List Source :=
  (fields.filter fun field => field.1 == name).map (·.2)

/-- Fields with their names as text; nothing if a name holds half of a pair. -/
def namedFields? (fields : List (List Symbol × Source)) : Option (List (String × Source)) :=
  fields.mapM fun (symbols, value) => do pure (← Symbol.text? symbols, value)

/-- One slot for each declared name, filled from the fields of an object. A declared name may
stand at most once; other names are ignored. -/
def slots? (names : List String) (fields : List (String × Source)) :
    Option (List (Option Source)) :=
  names.mapM fun name =>
    match valuesOf name fields with
    | [] => some none
    | [value] => some (some value)
    | _ => none

/-- One slot for each declared name, filled from items in order. There may be fewer items than
names, but not more. -/
def positions? (names : List String) (items : List Source) : Option (List (Option Source)) :=
  if items.length ≤ names.length then
    some (items.map some ++ List.replicate (names.length - items.length) none)
  else none

/-- The fields of a record, one slot for each declared name. A record is an object, or an array
of the fields in order. -/
def Source.record? (names : List String) : Source → Option (List (Option Source))
  | .object fields => (namedFields? fields).bind (slots? names)
  | .array items => positions? names items
  | _ => none

def fieldOr {α : Type} (default : α) (decoder : Decoder α) (room : Nat) :
    Option Source → Option α
  | none => some default
  | some source => decoder room source

def fieldRequired {α : Type} (decoder : Decoder α) (room : Nat) : Option Source → Option α
  | none => none
  | some source => decoder room source

end GameExport.Json
