import GameExport.Number.Double

/-! # 32-bit floating-point numbers

Percentages are 32-bit numbers, with infinities and without distinction among the values that
are no number. They are compared by value, so both zeros are equal and what is no number is
less than nothing.
-/

namespace GameExport

inductive Single
  | number (negative : Bool) (pattern : Fin 0x7F800001)
  | notANumber
  deriving DecidableEq, Repr

namespace Single

/-- The nonnegative number of a pattern; patterns beyond infinity are infinity. -/
def ofPattern (negative : Bool) (pattern : Nat) : Single :=
  .number negative ⟨min pattern 0x7F800000, by omega⟩

def ofDouble (value : Double) : Single :=
  ofPattern value.negative (BinaryFormat.double.convert .single value.pattern.val)

def bits : Single → Nat
  | .number negative pattern => (if negative then 0x80000000 else 0) + pattern.val
  | .notANumber => 0x7FC00000

def less : Single → Single → Bool
  | .number leftNegative left, .number rightNegative right =>
      let key (negative : Bool) (pattern : Nat) : Int := if negative then -pattern else pattern
      decide (key leftNegative left.val < key rightNegative right.val)
  | _, _ => false

end Single

end GameExport
