import GameExport.Number.Shortest

/-! # Finite 64-bit floating-point numbers

The numbers that may stand in a document. A number is a sign and a pattern below infinity,
so zero comes with two signs and there is no infinity. `Double.text` writes the fewest
digits that read back.
-/

namespace GameExport

structure Double where
  negative : Bool
  pattern : Fin 0x7FF0000000000000
  deriving DecidableEq, Repr

namespace Double

/-- The double of a sign and a pattern, if the pattern is below infinity. -/
def ofPattern? (negative : Bool) (pattern : Nat) : Option Double :=
  if bound : pattern < 0x7FF0000000000000 then some ⟨negative, pattern, bound⟩ else none

def digitsOf (value : Nat) : List Char := Nat.toDigits 10 value

/-- Where the layout of a number changes: positional between these places of the decimal
point, scientific outside. -/
structure Layout where
  leadingZeros : Int
  wholePlaces : Int

def layout : Layout := ⟨-4, 16⟩

/-- The text of `digits * 10 ^ exponent`. Positional text always has a fraction; an exponent
always has a sign. -/
def decimalText (decimal : Decimal) : List Char :=
  let digits := digitsOf decimal.digits
  let point : Int := digits.length + decimal.exponent
  if 0 ≤ decimal.exponent ∧ point ≤ layout.wholePlaces then
    digits ++ List.replicate decimal.exponent.toNat '0' ++ ['.', '0']
  else if 0 < point ∧ point ≤ layout.wholePlaces then
    digits.take point.toNat ++ '.' :: digits.drop point.toNat
  else if layout.leadingZeros ≤ point ∧ point ≤ 0 then
    '0' :: '.' :: List.replicate (-point).toNat '0' ++ digits
  else
    let power := point - 1
    let mark := if power < 0 then '-' else '+'
    let fraction := match digits.drop 1 with
      | [] => []
      | rest => '.' :: rest
    digits.take 1 ++ fraction ++ 'e' :: mark :: digitsOf power.natAbs

def text (value : Double) : List Char :=
  let magnitude :=
    if value.pattern.val = 0 then ['0', '.', '0']
    else decimalText (Decimal.shortest .double value.pattern.val)
  if value.negative then '-' :: magnitude else magnitude

end Double

end GameExport
