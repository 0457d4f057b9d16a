import GameExport.Number.Rounding

/-! # Binary floating point

A nonnegative floating-point number is a bit pattern without its sign: the patterns are
numbered in the order of their values, so the neighbours of a value are the neighbouring
patterns. A format fixes how many bits a pattern spends on the fraction and how small its
smallest positive value is; everything else follows. All arithmetic is exact, on naturals.
-/

namespace GameExport

structure BinaryFormat where
  fractionBits : Nat
  /-- The smallest positive value is `2 ^ -scaleBits`. -/
  scaleBits : Nat
  /-- The pattern of infinity, the first that stands for no number. -/
  infinity : Nat

namespace BinaryFormat

def double : BinaryFormat := ⟨52, 1074, 0x7FF0000000000000⟩

def single : BinaryFormat := ⟨23, 149, 0x7F800000⟩

def unitsPerOne (format : BinaryFormat) : Nat := Nat.pow 2 format.scaleBits

def magnitude (format : BinaryFormat) (pattern : Nat) : Nat :=
  let fractions := Nat.pow 2 format.fractionBits
  let field := pattern / fractions
  if field = 0 then pattern
  else (pattern % fractions + fractions) * Nat.pow 2 (field - 1)

/-- The pattern of the value nearest to `numerator / denominator`, a tie going to the even
pattern, and infinity for what is too large. -/
def nearest (format : BinaryFormat) (numerator denominator : Nat) : Nat :=
  let scaled := numerator * format.unitsPerOne
  let shift := Nat.log2 (scaled / denominator) - format.fractionBits
  min format.infinity
    (shift * Nat.pow 2 format.fractionBits + roundHalfEven scaled (denominator * Nat.pow 2 shift))

def add (format : BinaryFormat) (left right : Nat) : Nat :=
  format.nearest (format.magnitude left + format.magnitude right) format.unitsPerOne

def multiply (format : BinaryFormat) (left right : Nat) : Nat :=
  format.nearest (format.magnitude left * format.magnitude right)
    (format.unitsPerOne * format.unitsPerOne)

def divide (format : BinaryFormat) (left right : Nat) : Nat :=
  format.nearest (format.magnitude left) (format.magnitude right)

def ofNat (format : BinaryFormat) (value : Nat) : Nat := format.nearest value 1

def convert (source target : BinaryFormat) (pattern : Nat) : Nat :=
  if source.infinity ≤ pattern then target.infinity
  else target.nearest (source.magnitude pattern) source.unitsPerOne

def floor (format : BinaryFormat) (pattern : Nat) : Nat :=
  format.magnitude pattern / format.unitsPerOne

/-- The nearest whole number to a value, a tie going to the even one. -/
def round (format : BinaryFormat) (pattern : Nat) : Nat :=
  roundHalfEven (format.magnitude pattern) format.unitsPerOne

example : double.ofNat 1 = 0x3FF0000000000000 := by decide +kernel
example : single.divide (single.ofNat 1) (single.ofNat 3) = 0x3EAAAAAB := by decide +kernel

end BinaryFormat

end GameExport
