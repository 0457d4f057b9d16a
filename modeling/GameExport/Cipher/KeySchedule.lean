import GameExport.Cipher.Block

/-! # Round keys

The keys of the rounds, grown from a key of six columns: each new column is the one six
places before it plus the newest one, which at the start of every group of six is turned,
replaced and marked with a constant.
-/

namespace GameExport.Cipher

def keyColumns : Nat := 6

def scheduleColumns : Nat := 52

def turn (column : Column) : Column :=
  ⟨substitute column.second, substitute column.third, substitute column.fourth,
    substitute column.first⟩

def mark (constant : UInt8) (column : Column) : Column :=
  { column with first := column.first ^^^ constant }

/-- Extend a list of columns, newest first, by `count` columns. `place` counts the columns
within a group and `constant` marks the next group. -/
def extend : (count place : Nat) → (constant : UInt8) → List Column → List Column
  | 0, _, _, columns => columns
  | count + 1, place, constant, columns =>
      match columns, columns[keyColumns - 1]? with
      | newest :: _, some old =>
          if place = 0 then
            extend count 1 (double constant) (old.add (mark constant (turn newest)) :: columns)
          else
            extend count ((place + 1) % keyColumns) constant (old.add newest :: columns)
      | _, _ => columns

def columnsOf : Bytes → List Column
  | a :: b :: c :: d :: rest => ⟨a, b, c, d⟩ :: columnsOf rest
  | _ => []

def blocksOf : List Column → List Block
  | a :: b :: c :: d :: rest => ⟨a, b, c, d⟩ :: blocksOf rest
  | _ => []

def roundKeys (key : Bytes) : List Block :=
  blocksOf (extend (scheduleColumns - keyColumns) 0 1 (columnsOf key).reverse).reverse

end GameExport.Cipher
