/-! # Tables of settings

What a settings file holds: a table of named values, some of which are tables again. Every
table remembers how it came to be, because that decides what may still be added to it. Main
statement: what is put under a new name is found under it.
-/

namespace GameExport.Toml

inductive Origin
  | implied
  | dotted
  | declared
  /-- Written out as a value; it is complete. -/
  | inline
  deriving DecidableEq, Repr

/-- A value. Settings are texts and whole numbers; of other values only the kind is kept. -/
inductive Value
  | text (value : String)
  | integer (value : Int)
  | float
  /-- A number that is too large to be kept. It may stand only where nobody looks. -/
  | oversized
  | flag (value : Bool)
  | time
  | array (items : List Value)
  | tables (items : List Value)
  | table (origin : Origin) (fields : List (String × Value))
  deriving Repr, Inhabited

mutual
def Value.isKept : Value → Bool
  | .oversized => false
  | .array items => areKept items
  | .tables items => areKept items
  | .table _ fields => fieldsAreKept fields
  | _ => true

def Value.areKept : List Value → Bool
  | [] => true
  | item :: rest => item.isKept && areKept rest

def Value.fieldsAreKept : List (String × Value) → Bool
  | [] => true
  | (_, value) :: rest => value.isKept && fieldsAreKept rest
end

abbrev Fields := List (String × Value)

def putField (name : String) (value : Value) : Fields → Fields
  | [] => [(name, value)]
  | (other, old) :: rest =>
      if other = name then (name, value) :: rest else (other, old) :: putField name value rest

theorem lookup_putField_self (name : String) (value : Value) (fields : Fields) :
    (putField name value fields).lookup name = some value := by
  induction fields with
  | nil => simp [putField]
  | cons field rest induction =>
      obtain ⟨other, old⟩ := field
      by_cases same : other = name
      · simp [putField, same]
      · have different : (name == other) = false := by simp [Ne.symm same]
        simp [putField, same, List.lookup_cons, different, induction]

structure OpenTable where
  origin : Origin
  fields : Fields

/-- Change the table that a path leads to from here, creating tables that are missing. Headers
reach any table that is not complete. Names with several parts do not reach through a table
with a header of its own. Both reach through the last one of tables in double brackets. -/
def reach (byDots : Bool) (change : OpenTable → Option Fields) :
    (path : List String) → OpenTable → Option Fields
  | [], table => change table
  | name :: rest, table =>
      let fresh : Origin := if byDots then .dotted else .implied
      match table.fields.lookup name with
      | none => do
          let inner ← reach byDots change rest ⟨fresh, []⟩
          pure (putField name (.table fresh inner) table.fields)
      | some (.table origin fields) =>
          if origin = .inline ∨ (byDots = true ∧ origin = .declared) then none
          else do
            let inner ← reach byDots change rest ⟨origin, fields⟩
            pure (putField name (.table origin inner) table.fields)
      | some (.tables items) =>
          match items.getLast? with
          | some (.table origin fields) => do
              let inner ← reach byDots change rest ⟨origin, fields⟩
              pure (putField name (.tables (items.dropLast ++ [.table origin inner]))
                table.fields)
          | _ => none
      | some _ => none

/-- Add a value under a name with several parts; the last one must be new. -/
def addValue (path : List String) (name : String) (value : Value) (table : OpenTable) :
    Option Fields :=
  reach true (fun inner =>
    if (inner.origin = .dotted) = (path = []) then none
    else
      match inner.fields.lookup name with
      | none => some (putField name value inner.fields)
      | some _ => none) path table

/-- Open the table of a header. It may be there already if it was only implied. -/
def declareTable (path : List String) (name : String) (fields : Fields) : Option Fields :=
  reach false (fun inner =>
    match inner.fields.lookup name with
    | none => some (putField name (.table .declared []) inner.fields)
    | some (.table .implied fields) =>
        some (putField name (.table .declared fields) inner.fields)
    | some _ => none) path ⟨.declared, fields⟩

def appendTable (path : List String) (name : String) (fields : Fields) : Option Fields :=
  reach false (fun inner =>
    match inner.fields.lookup name with
    | none => some (putField name (.tables [.table .declared []]) inner.fields)
    | some (.tables items) =>
        some (putField name (.tables (items ++ [.table .declared []])) inner.fields)
    | some _ => none) path ⟨.declared, fields⟩

end GameExport.Toml
