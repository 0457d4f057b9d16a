import GameExport.Text.Duration

/-! # Reading durations

A duration is written as numbers with units, such as `5m 30s`. A number may have a fraction that
comes out even, and blanks may stand between its digits. No time at all is written without a
unit.
-/

namespace GameExport.Duration

def isBlank (char : Char) : Bool :=
  let code := char.toNat
  (9 ≤ code && code ≤ 13) || code == 32 || code == 0x85 || code == 0xA0 || code == 0x1680 ||
    (0x2000 ≤ code && code ≤ 0x200A) || code == 0x2028 || code == 0x2029 || code == 0x202F ||
    code == 0x205F || code == 0x3000

def isUnitLetter (char : Char) : Bool := char.isAlpha || char == 'µ'

inductive Measure
  | nanoseconds (count : Nat)
  | seconds (count : Nat)
  deriving DecidableEq, Repr

structure ReadUnit where
  names : List String
  whole : Measure
  /-- What a fraction counts, if there may be one. It has to come out even. -/
  part : Option Measure

/-- The units. A year is 365.25 days and a month 30.44. -/
def readUnits : List ReadUnit := [
  ⟨["nanos", "nsec", "ns"], .nanoseconds 1, none⟩,
  ⟨["usec", "us", "µs"], .nanoseconds 1000, some (.nanoseconds 1000)⟩,
  ⟨["millis", "msec", "ms"], .nanoseconds 1000000, some (.nanoseconds 1000000)⟩,
  ⟨["seconds", "second", "secs", "sec", "s"], .seconds 1, some (.nanoseconds 1000000000)⟩,
  ⟨["minutes", "minute", "min", "mins", "m"], .seconds 60, some (.nanoseconds 60000000000)⟩,
  ⟨["hours", "hour", "hr", "hrs", "h"], .seconds 3600, some (.seconds 3600)⟩,
  ⟨["days", "day", "d"], .seconds 86400, some (.seconds 86400)⟩,
  ⟨["weeks", "week", "wk", "wks", "w"], .seconds 604800, some (.seconds 604800)⟩,
  ⟨["months", "month", "M"], .seconds 2630016, some (.seconds 2630016)⟩,
  ⟨["years", "year", "yr", "yrs", "y"], .seconds 31557600, some (.seconds 31557600)⟩]

/-- The digits up to the first character that is neither a digit nor blank, and what follows. -/
def looseDigits : List Char → List Nat × List Char
  | [] => ([], [])
  | char :: rest =>
      if char.isDigit then
        let (digits, rest) := looseDigits rest
        ((char.toNat - '0'.toNat) :: digits, rest)
      else if isBlank char then looseDigits rest
      else ([], char :: rest)

def number (digits : List Nat) : Nat := digits.foldl (fun value digit => value * 10 + digit) 0

def numberLimit : Nat := UInt64.size

def bounded (value : Nat) : Option Nat := if value < numberLimit then some value else none

def readFraction? : List Char → Option (List Nat × List Char)
  | '.' :: rest =>
      match looseDigits rest with
      | ([], _) => none
      | read => some read
  | rest => some ([], rest)

/-- A number of nanoseconds with some seconds and nanoseconds added. The seconds of a sum and
the nanoseconds beyond them are numbers below the limit. -/
def lengthen (total seconds nanoseconds : Nat) : Option Nat := do
  let _ ← bounded (total % 1000000000 + nanoseconds)
  let sum := total + seconds * 1000000000 + nanoseconds
  let _ ← bounded (sum / 1000000000)
  pure sum

def Measure.lengthen (measure : Measure) (total count parts : Nat) : Option Nat := do
  let (size, counted) := match measure with
    | .nanoseconds size => (size, fun count => Duration.lengthen total 0 count)
    | .seconds size => (size, fun count => Duration.lengthen total count 0)
  let product ← bounded (count * size)
  if product % parts = 0 then counted (product / parts) else none

def readSpan? (total : Nat) (text : List Char) : Option (Nat × List Char) := do
  let (whole, rest) := looseDigits text
  let (fraction, rest) ← readFraction? rest
  let name := String.ofList (rest.takeWhile isUnitLetter)
  let unit ← readUnits.find? fun unit => unit.names.contains name
  let total ← unit.whole.lengthen total (← bounded (number whole)) 1
  let rest := rest.dropWhile isUnitLetter
  if fraction = [] then pure (total, rest)
  else
    let parts ← bounded (Nat.pow 10 fraction.length)
    pure (← (← unit.part).lengthen total (number fraction) parts, rest)

/-- Add numbers with units up to the end to a number of nanoseconds. `steps` bounds how many
there are. -/
def readSpans? : (steps total : Nat) → List Char → Option Nat
  | 0, _, _ => none
  | steps + 1, total, text =>
      match text.dropWhile isBlank with
      | [] => some total
      | char :: rest =>
          if char.isDigit then do
            let (total, rest) ← readSpan? total (char :: rest)
            readSpans? steps total rest
          else none

def read? (text : String) : Option Duration :=
  let chars := text.toList
  if chars = ['0'] then some ⟨0⟩
  else if chars.all isBlank then none
  else (readSpans? chars.length.succ 0 chars).map Duration.mk

example : read? "5m 3s" = some ⟨303000000000⟩ := by decide +kernel
example : read? "0.5h" = some ⟨1800000000000⟩ := by decide +kernel
example : read? "0.001h" = none := by decide +kernel
example : read? "90" = none := by decide +kernel

end GameExport.Duration
