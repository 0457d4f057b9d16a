/-! # Durations

A duration is a number of nanoseconds. It is written in two ways: exactly, in the largest unit
that does not make it a fraction below one, or to the millisecond as years, months, days and so
on. It is read from numbers with units.
-/

namespace GameExport

structure Duration where
  nanoseconds : Nat
  deriving DecidableEq, Repr

namespace Duration

def ofMilliseconds (milliseconds : Nat) : Duration := ⟨milliseconds * 1000000⟩

def ofSeconds (seconds : Nat) : Duration := ⟨seconds * 1000000000⟩

def seconds (duration : Duration) : Nat := duration.nanoseconds / 1000000000

/-- The decimals of a fraction with the given number of places, without zeros at the end. -/
def decimals (fraction places : Nat) : List Char :=
  let digits := Nat.toDigits 10 fraction
  let padded := List.replicate (places - digits.length) '0' ++ digits
  (padded.reverse.dropWhile (· == '0')).reverse

def inUnit (nanoseconds places : Nat) (unit : String) : String :=
  let unitSize := Nat.pow 10 places
  let fraction := nanoseconds % unitSize
  let point := if fraction = 0 then [] else '.' :: decimals fraction places
  toString (nanoseconds / unitSize) ++ String.ofList point ++ unit

def exactText (duration : Duration) : String :=
  let nanoseconds := duration.nanoseconds
  if 1000000000 ≤ nanoseconds then inUnit nanoseconds 9 "s"
  else if 1000000 ≤ nanoseconds then inUnit nanoseconds 6 "ms"
  else if 1000 ≤ nanoseconds then inUnit nanoseconds 3 "µs"
  else inUnit nanoseconds 0 "ns"

structure TimeUnit where
  name : String
  milliseconds : Nat
  hasPlural : Bool

/-- The units of the broken-up text, largest first. A year is 365.25 days and a month 30.44. -/
def timeUnits : List TimeUnit := [
  ⟨"year", 31557600000, true⟩, ⟨"month", 2630016000, true⟩, ⟨"day", 86400000, true⟩,
  ⟨"h", 3600000, false⟩, ⟨"m", 60000, false⟩, ⟨"s", 1000, false⟩, ⟨"ms", 1, false⟩]

def parts : List TimeUnit → (milliseconds : Nat) → List String
  | [], _ => []
  | unit :: rest, milliseconds =>
      let count := milliseconds / unit.milliseconds
      let others := parts rest (milliseconds % unit.milliseconds)
      if count = 0 then others
      else
        (toString count ++ unit.name ++ if unit.hasPlural && 1 < count then "s" else "") :: others

/-- The most milliseconds that are told, less one. -/
def millisecondLimit : Nat := UInt64.size

def brokenText (duration : Duration) : String :=
  match parts timeUnits (duration.nanoseconds / 1000000 % millisecondLimit) with
  | [] => "0s"
  | parts => " ".intercalate parts

end Duration

end GameExport
