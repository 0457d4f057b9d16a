import GameExport.Bytes
import GameExport.Cipher.Substitution

/-! # Blocks and rounds

A block is four columns of four bytes. A round replaces the bytes, moves them between
columns, mixes each column and adds a key; the last round does not mix. Every step has an
inverse, and so has the whole.
-/

namespace GameExport.Cipher

structure Column where
  first : UInt8
  second : UInt8
  third : UInt8
  fourth : UInt8
  deriving DecidableEq, Repr

namespace Column

def map (change : UInt8 → UInt8) (column : Column) : Column :=
  ⟨change column.first, change column.second, change column.third, change column.fourth⟩

def add (left right : Column) : Column :=
  ⟨left.first ^^^ right.first, left.second ^^^ right.second, left.third ^^^ right.third,
    left.fourth ^^^ right.fourth⟩

def bytes (column : Column) : Bytes := [column.first, column.second, column.third, column.fourth]

end Column

/-- A byte times two, in the field that the cipher works in. -/
def double (byte : UInt8) : UInt8 := (byte <<< 1) ^^^ (if 128 ≤ byte then 0x1B else 0)

def triple (byte : UInt8) : UInt8 := double byte ^^^ byte

/-- A byte times a sum of powers of two: one, two, four, eight, as chosen. -/
def times (one two four eight : Bool) (byte : UInt8) : UInt8 :=
  let twice := double byte
  let fourTimes := double twice
  let eightTimes := double fourTimes
  (if one then byte else 0) ^^^ (if two then twice else 0) ^^^
    (if four then fourTimes else 0) ^^^ (if eight then eightTimes else 0)

def mixColumn (column : Column) : Column :=
  let ⟨a, b, c, d⟩ := column
  ⟨double a ^^^ triple b ^^^ c ^^^ d, a ^^^ double b ^^^ triple c ^^^ d,
    a ^^^ b ^^^ double c ^^^ triple d, triple a ^^^ b ^^^ c ^^^ double d⟩

def unmixColumn (column : Column) : Column :=
  let ⟨a, b, c, d⟩ := column
  let nine := times true false false true
  let eleven := times true true false true
  let thirteen := times true false true true
  let fourteen := times false true true true
  ⟨fourteen a ^^^ eleven b ^^^ thirteen c ^^^ nine d,
    nine a ^^^ fourteen b ^^^ eleven c ^^^ thirteen d,
    thirteen a ^^^ nine b ^^^ fourteen c ^^^ eleven d,
    eleven a ^^^ thirteen b ^^^ nine c ^^^ fourteen d⟩

structure Block where
  first : Column
  second : Column
  third : Column
  fourth : Column
  deriving DecidableEq, Repr

namespace Block

def size : Nat := 16

def map (change : Column → Column) (block : Block) : Block :=
  ⟨change block.first, change block.second, change block.third, change block.fourth⟩

def add (left right : Block) : Block :=
  ⟨left.first.add right.first, left.second.add right.second, left.third.add right.third,
    left.fourth.add right.fourth⟩

/-- Move the bytes of each row to the left, by none in the first row up to three in the
last. -/
def shift (block : Block) : Block :=
  let ⟨a, b, c, d⟩ := block
  ⟨⟨a.first, b.second, c.third, d.fourth⟩, ⟨b.first, c.second, d.third, a.fourth⟩,
    ⟨c.first, d.second, a.third, b.fourth⟩, ⟨d.first, a.second, b.third, c.fourth⟩⟩

def unshift (block : Block) : Block :=
  let ⟨a, b, c, d⟩ := block
  ⟨⟨a.first, d.second, c.third, b.fourth⟩, ⟨b.first, a.second, d.third, c.fourth⟩,
    ⟨c.first, b.second, a.third, d.fourth⟩, ⟨d.first, c.second, b.third, a.fourth⟩⟩

def bytes (block : Block) : Bytes :=
  block.first.bytes ++ block.second.bytes ++ block.third.bytes ++ block.fourth.bytes

def ofBytes (bytes : Bytes) : Block :=
  let byte (index : Nat) := bytes.getD index 0
  ⟨⟨byte 0, byte 1, byte 2, byte 3⟩, ⟨byte 4, byte 5, byte 6, byte 7⟩,
    ⟨byte 8, byte 9, byte 10, byte 11⟩, ⟨byte 12, byte 13, byte 14, byte 15⟩⟩

def rounds (keys : List Block) (block : Block) : Block :=
  match keys with
  | [] => block
  | [last] => ((block.map (Column.map substitute)).shift).add last
  | key :: rest =>
      rounds rest ((((block.map (Column.map substitute)).shift).map mixColumn).add key)

def undoRounds (keys : List Block) (block : Block) : Block :=
  match keys with
  | [] => block
  | [last] => ((block.add last).unshift).map (Column.map restore)
  | key :: rest =>
      ((((undoRounds rest block).add key).map unmixColumn).unshift).map (Column.map restore)

def encrypt (keys : List Block) (block : Block) : Block :=
  match keys with
  | [] => block
  | first :: rest => rounds rest (block.add first)

def decrypt (keys : List Block) (block : Block) : Block :=
  match keys with
  | [] => block
  | first :: rest => (undoRounds rest block).add first

end Block

end GameExport.Cipher
