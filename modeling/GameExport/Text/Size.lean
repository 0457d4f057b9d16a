import GameExport.Number.Binary

/-! # Sizes for people

A size below a kilobyte is given in bytes; a larger one in kilobytes, megabytes, gigabytes or
terabytes, with one decimal. The unit is the first in which the size is less than 1024, before
it is rounded.
-/

namespace GameExport.Text

def sizeUnits : List String := ["KB", "MB", "GB", "TB"]

def unitBytes (place : Nat) : Nat := Nat.pow 1024 (place + 1)

/-- The place of the unit for a size, at least the given place; the last unit takes all that
is left. -/
def unitPlace (size : Nat) : (units : List String) → (place : Nat) → Nat
  | _ :: next :: rest, place =>
      if unitBytes place * 1024 ≤ size then unitPlace size (next :: rest) (place + 1) else place
  | _, place => place

/-- A size as far as floating point can hold it. -/
def heldSize (bytes : Nat) : Nat :=
  BinaryFormat.double.floor (BinaryFormat.double.ofNat bytes)

def tenths (bytes place : Nat) : Nat := roundHalfEven (heldSize bytes * 10) (unitBytes place)

def size (bytes : Nat) : String :=
  if bytes < 1024 then s!"{bytes} B"
  else
    let place := unitPlace (heldSize bytes) sizeUnits 0
    let tenths := tenths bytes place
    let unit := sizeUnits.getD place ""
    s!"{tenths / 10}.{tenths % 10} {unit}"

end GameExport.Text
