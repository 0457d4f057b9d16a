import GameExport.Toml.Scanner
import GameExport.Toml.Value

/-! # Numbers and times in settings files

The values that are written without quotes: truth values, whole numbers in four bases, floats,
dates and times. Single underscores may stand between digits.
-/

namespace GameExport.Toml

/-- The digits of a group with single underscores between them, as values in a base. -/
def digits? (base : Nat) : List Char → Option (List Nat)
  | [] => none
  | char :: rest => do
      let digit ← hexDigit? char
      if digit < base then
        match rest with
        | [] => pure [digit]
        | '_' :: rest => pure (digit :: (← digits? base rest))
        | rest => pure (digit :: (← digits? base rest))
      else none

def spell (base : Nat) (digits : List Nat) : Nat :=
  digits.foldl (fun value digit => value * base + digit) 0

/-- Decimal digits of which a zero stands only alone in front. -/
def decimal? (text : List Char) : Option Nat := do
  match ← digits? 10 text with
  | 0 :: _ :: _ => none
  | digits => pure (spell 10 digits)

def signed (text : List Char) : Bool × List Char :=
  match text with
  | '-' :: rest => (true, rest)
  | '+' :: rest => (false, rest)
  | rest => (false, rest)

def integerLimit : Nat := Nat.pow 2 128

def integerFloor : Int := -(Nat.pow 2 127 : Nat)

def integer? (text : List Char) : Option Int :=
  match text with
  | '0' :: 'x' :: rest => (digits? 16 rest).map fun digits => (spell 16 digits : Int)
  | '0' :: 'o' :: rest => (digits? 8 rest).map fun digits => (spell 8 digits : Int)
  | '0' :: 'b' :: rest => (digits? 2 rest).map fun digits => (spell 2 digits : Int)
  | text =>
      let (negative, rest) := signed text
      (decimal? rest).map fun value => if negative then -(value : Int) else value

def Value.ofInteger (value : Int) : Value :=
  if integerFloor ≤ value ∧ value < integerLimit then .integer value else .oversized

/-- From here on numbers round to infinity: half a step above the largest double. -/
def floatLimit : Nat := Nat.pow 2 1024 - Nat.pow 2 970

/-- Whether `significand * 10 ^ exponent` rounds to infinity. `size` counts the digits before
the point; only for a size of 309 the number itself has to be compared. -/
def roundsToInfinity (significand : Nat) (exponent : Int) : Bool :=
  let size : Int := (Nat.toDigits 10 significand).length + exponent
  if significand = 0 ∨ size ≤ 308 then false
  else if 310 ≤ size then true
  else if 0 ≤ exponent then decide (floatLimit ≤ significand * Nat.pow 10 exponent.toNat)
  else decide (floatLimit * Nat.pow 10 exponent.natAbs ≤ significand)

example : roundsToInfinity 17976931348623157 292 = false := by decide +kernel
example : roundsToInfinity 17976931348623159 292 = true := by decide +kernel

def fraction? : List Char → Option (List Nat)
  | [] => some []
  | '.' :: rest => digits? 10 rest
  | _ => none

def exponent? : List Char → Option Int
  | [] => some 0
  | _ :: rest =>
      let (negative, rest) := signed rest
      (digits? 10 rest).map fun digits =>
        if negative then -(spell 10 digits : Int) else spell 10 digits

def float? (text : List Char) : Option Value :=
  let (_, magnitude) := signed text
  if magnitude = "inf".toList ∨ magnitude = "nan".toList then some .float
  else do
    let mantissa := magnitude.takeWhile fun char => char != 'e' && char != 'E'
    let whole := mantissa.takeWhile (· != '.')
    let _ ← decimal? whole
    let digits ← digits? 10 whole
    let fraction ← fraction? (mantissa.drop whole.length)
    let exponent ← exponent? (magnitude.drop mantissa.length)
    if magnitude.length = whole.length then none
    else
      pure (if roundsToInfinity (spell 10 (digits ++ fraction)) (exponent - fraction.length)
        then .oversized else .float)

def fixedDigits? (count : Nat) (text : List Char) : Option (Nat × List Char) :=
  let front := text.take count
  if front.length = count ∧ front.all Char.isDigit then
    some (front.foldl (fun value char => value * 10 + (char.toNat - 48)) 0, text.drop count)
  else none

def monthLength (year month : Nat) : Nat :=
  if month = 2 then
    if year % 4 = 0 ∧ (year % 100 ≠ 0 ∨ year % 400 = 0) then 29 else 28
  else if month = 4 ∨ month = 6 ∨ month = 9 ∨ month = 11 then 30
  else 31

def afterDate? (text : List Char) : Option (List Char) := do
  let (year, text) ← fixedDigits? 4 text
  match text with
  | '-' :: text => do
      let (month, text) ← fixedDigits? 2 text
      match text with
      | '-' :: text => do
          let (day, text) ← fixedDigits? 2 text
          if 1 ≤ month ∧ month ≤ 12 ∧ 1 ≤ day ∧ day ≤ monthLength year month then pure text
          else none
      | _ => none
  | _ => none

def afterMinutes? (text : List Char) : Option (List Char) := do
  let (hour, text) ← fixedDigits? 2 text
  match text with
  | ':' :: text => do
      let (minute, text) ← fixedDigits? 2 text
      if hour ≤ 23 ∧ minute ≤ 59 then pure text else none
  | _ => none

def afterTime? (text : List Char) : Option (List Char) := do
  match ← afterMinutes? text with
  | ':' :: text => do
      let (second, text) ← fixedDigits? 2 text
      if second ≤ 60 then
        match text with
        | '.' :: text =>
            let fraction := text.takeWhile Char.isDigit
            if fraction = [] then none else pure (text.drop fraction.length)
        | text => pure text
      else none
  | text => pure text

def afterOffset? : List Char → Option (List Char)
  | 'Z' :: rest => some rest
  | 'z' :: rest => some rest
  | '+' :: rest => afterMinutes? rest
  | '-' :: rest => afterMinutes? rest
  | text => some text

def isTime (text : List Char) : Bool :=
  match afterDate? text with
  | some [] => true
  | some (mark :: rest) =>
      (mark == 'T' || mark == 't' || mark == ' ') &&
        (do afterOffset? (← afterTime? rest)) == some []
  | none => afterTime? text == some []

def word? (text : List Char) : Option Value :=
  if text = "true".toList then some (.flag true)
  else if text = "false".toList then some (.flag false)
  else
    match integer? text with
    | some value => some (.ofInteger value)
    | none => if isTime text then some .time else float? text

def isWordChar (char : Char) : Bool :=
  char.isAlphanum || char == '_' || char == '-' || char == '+' || char == '.' || char == ':'

/-- A word at the front of a text: a date and a time may have a blank between them. -/
def takeWord (text : List Char) : List Char :=
  let first := text.takeWhile isWordChar
  match afterDate? first, text.drop first.length with
  | some [], ' ' :: digit :: rest =>
      if digit.isDigit then first ++ ' ' :: (digit :: rest).takeWhile isWordChar else first
  | _, _ => first

end GameExport.Toml
