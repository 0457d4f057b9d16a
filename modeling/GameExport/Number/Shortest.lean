import GameExport.Number.Binary

/-! # The shortest decimal of a floating-point number

Of all decimals that round to a given value, the one on the coarsest decimal grid, and on
that grid the nearest. A decimal grid is the multiples of one power of ten; the only
candidates on it are the two neighbours of the value.
-/

namespace GameExport

structure Decimal where
  digits : Nat
  exponent : Int
  deriving DecidableEq, Repr

namespace Decimal

def power (exponent : Int) : Nat × Nat := (Nat.pow 10 exponent.toNat, Nat.pow 10 (-exponent).toNat)

def normalize (steps : Nat) (decimal : Decimal) : Decimal :=
  match steps with
  | 0 => decimal
  | steps + 1 =>
      if decimal.digits ≠ 0 ∧ decimal.digits % 10 = 0 then
        normalize steps ⟨decimal.digits / 10, decimal.exponent + 1⟩
      else decimal

/-- The interval of numbers that round to a pattern, in halves of the smallest positive
value. Its ends belong to it exactly for an even pattern. -/
structure Interval where
  low : Nat
  value : Nat
  high : Nat
  closed : Bool

def Interval.of (format : BinaryFormat) (pattern : Nat) : Interval where
  low := format.magnitude (pattern - 1) + format.magnitude pattern
  value := 2 * format.magnitude pattern
  high := format.magnitude pattern + format.magnitude (pattern + 1)
  closed := pattern % 2 == 0

def Interval.holds (interval : Interval) (numerator denominator : Nat) : Bool :=
  if interval.closed then
    decide (interval.low * denominator ≤ numerator ∧ numerator ≤ interval.high * denominator)
  else
    decide (interval.low * denominator < numerator ∧ numerator < interval.high * denominator)

/-- The multiple of `10 ^ exponent` nearest to the value among its two neighbours that lie
in the interval; `scale` is the number of units in one. -/
def onGrid (interval : Interval) (scale : Nat) (exponent : Int) : Option Nat :=
  let (up, down) := power exponent
  let below := interval.value * down / (scale * up)
  let inside (digits : Nat) := interval.holds (digits * up * scale) down
  let rest := interval.value * down - below * up * scale
  let belowNearer := decide (2 * rest < scale * up) ||
    (decide (2 * rest = scale * up) && below % 2 == 0)
  match inside below, inside (below + 1) with
  | true, true => some (if belowNearer then below else below + 1)
  | true, false => some below
  | false, true => some (below + 1)
  | false, false => none

def search (interval : Interval) (scale : Nat) : (steps : Nat) → (exponent : Int) → Decimal
  | 0, exponent => ⟨interval.value / scale, exponent⟩
  | steps + 1, exponent =>
      match onGrid interval scale exponent with
      | some digits => ⟨digits, exponent⟩
      | none => search interval scale steps (exponent - 1)

/-- The shortest decimal that rounds to a positive pattern. The search starts on a grid
coarser than the value and needs no more steps than the format has decimal digits. -/
def shortest (format : BinaryFormat) (pattern : Nat) : Decimal :=
  let interval := Interval.of format pattern
  let scale := Nat.pow 2 (format.scaleBits + 1)
  let binaryExponent : Int := (Nat.log2 interval.value : Int) - (format.scaleBits + 1 : Nat)
  let start : Int := binaryExponent * 30103 / 100000 + 2
  normalize 20 (search interval scale 40 start)

example : shortest .double (BinaryFormat.double.nearest 1 10) = ⟨1, -1⟩ := by decide +kernel
example : shortest .double 1 = ⟨5, -324⟩ := by decide +kernel

end Decimal

end GameExport
