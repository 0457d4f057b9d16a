import GameExport.Number.Double

/-! # Values of JSON documents

`Json` is a value; `Json.Source` is a text that has been taken apart by the grammar alone.
The two differ because a part of a document that nobody reads only has to be grammatical: a
number out of range or half of a surrogate pair does no harm there. `Source.value?` is the
step from one to the other.
-/

namespace GameExport

/-- A number of a document: whole numbers that fit 64 bits are kept exactly, all others are
floating point. -/
inductive Json.Number
  | natural (value : UInt64)
  /-- The negative number `-1 - below`. -/
  | negative (below : Fin 0x8000000000000000)
  | float (value : Double)
  deriving DecidableEq, Repr

inductive Json
  | null
  | bool (value : Bool)
  | number (value : Json.Number)
  | string (value : String)
  | array (items : List Json)
  | object (fields : List (String × Json))
  deriving Repr, Inhabited

namespace Json

def nat (value : Nat) : Json :=
  if value < UInt64.size then .number (.natural (UInt64.ofNat value))
  else match Double.ofPattern? false (BinaryFormat.double.ofNat value) with
    | some double => .number (.float double)
    | none => .null

def strings (values : List String) : Json := .array (values.map .string)

def stringOrNull : Option String → Json
  | some value => .string value
  | none => .null

structure Literal where
  negative : Bool
  whole : List Nat
  fraction : Option (List Nat)
  exponent : Option (Bool × List Nat)
  deriving DecidableEq, Repr

/-- One element of a string as written: a character, or a `\u` escape. -/
inductive Symbol
  | char (value : Char)
  | unit (value : Nat)
  deriving DecidableEq, Repr

inductive Source
  | null
  | bool (value : Bool)
  | number (literal : Literal)
  | string (symbols : List Symbol)
  | array (items : List Source)
  | object (fields : List (List Symbol × Source))
  deriving Repr, Inhabited

def isHighHalf (unit : Nat) : Bool := decide (0xD800 ≤ unit ∧ unit ≤ 0xDBFF)

def isLowHalf (unit : Nat) : Bool := decide (0xDC00 ≤ unit ∧ unit ≤ 0xDFFF)

/-- The characters that symbols stand for: halves must come in pairs. -/
def Symbol.chars? : List Symbol → Option (List Char)
  | [] => some []
  | .char value :: rest => (chars? rest).map (value :: ·)
  | .unit high :: .unit low :: rest =>
      if isHighHalf high then
        if isLowHalf low then
          (chars? rest).map
            (Char.ofNat (0x10000 + (high - 0xD800) * 0x400 + (low - 0xDC00)) :: ·)
        else none
      else if isLowHalf high then none
      else (chars? (.unit low :: rest)).map (Char.ofNat high :: ·)
  | .unit value :: rest =>
      if isHighHalf value || isLowHalf value then none
      else (chars? rest).map (Char.ofNat value :: ·)

def Symbol.text? (symbols : List Symbol) : Option String :=
  (Symbol.chars? symbols).map String.ofList

namespace Literal

def limit : Nat := 0xFFFFFFFFFFFFFFFF

/-- The digits that a 64-bit number can hold, and how many were left over once one did not
fit. -/
def hold : (kept : Nat) → List Nat → Nat × List Nat
  | kept, [] => (kept, [])
  | kept, digit :: rest =>
      if kept * 10 + digit ≤ limit then hold (kept * 10 + digit) rest
      else (kept, digit :: rest)

/-- `significand * 10 ^ exponent` as a double: the significand is rounded first, the power
of ten next, and their product or quotient last; what is far too small is divided in two
steps. Nothing if the result is infinite. -/
def scale (negative : Bool) (significand : Nat) (exponent : Int) : Option Double :=
  let format := BinaryFormat.double
  let start := format.ofNat significand
  let power (places : Nat) := format.ofNat (Nat.pow 10 places)
  if 0 ≤ exponent then
    if exponent ≤ 308 then
      Double.ofPattern? negative (format.multiply start (power exponent.toNat))
    else if start = 0 then Double.ofPattern? negative 0
    else none
  else
    let places := exponent.natAbs
    if places ≤ 308 then Double.ofPattern? negative (format.divide start (power places))
    else
      let smaller := format.divide start (power 308)
      if places ≤ 616 then
        Double.ofPattern? negative (format.divide smaller (power (places - 308)))
      else Double.ofPattern? negative 0

def spell (digits : List Nat) : Nat := digits.foldl (fun value digit => value * 10 + digit) 0

def exponentLimit : Nat := 0x7FFFFFFF

/-- A literal as floating point. Digits are kept while they fit 64 bits; the first that does
not fit and those after it only count as places, and only before the point. -/
def float? (literal : Literal) : Option Double :=
  let (kept, dropped) := hold 0 literal.whole
  let (significand, rest) := hold kept (literal.fraction.getD [])
  let used := (literal.fraction.getD []).length - rest.length
  let places : Int := (dropped.length : Int) - used
  match literal.exponent with
  | none => scale literal.negative significand places
  | some (negativeExponent, digits) =>
      let written := spell digits
      if exponentLimit < written then
        if significand ≠ 0 ∧ negativeExponent = false then none
        else Double.ofPattern? literal.negative 0
      else
        scale literal.negative significand
          (if negativeExponent then places - written else places + written)

/-- The value of a literal. A whole number is kept exactly if it fits; minus zero does not. -/
def value? (literal : Literal) : Option Number :=
  match literal.fraction, literal.exponent with
  | none, none =>
      let (kept, dropped) := hold 0 literal.whole
      if dropped = [] then
        if literal.negative then
          if bound : 0 < kept ∧ kept ≤ 0x8000000000000000 then
            some (.negative ⟨kept - 1, by omega⟩)
          else (Double.ofPattern? true (BinaryFormat.double.ofNat kept)).map .float
        else some (.natural (UInt64.ofNat kept))
      else literal.float?.map .float
  | _, _ => literal.float?.map .float

end Literal

def insertField (name : String) (value : Json) : List (String × Json) → List (String × Json)
  | [] => [(name, value)]
  | (other, old) :: rest =>
      if name = other then (name, value) :: rest
      else if name < other then (name, value) :: (other, old) :: rest
      else (other, old) :: insertField name value rest

def sortFields (fields : List (String × Json)) : List (String × Json) :=
  fields.foldl (fun sorted field => insertField field.1 field.2 sorted) []

/-- The value of a document that nests at most `room` deep, with the fields of every object
sorted by name. -/
def Source.value? : (room : Nat) → Source → Option Json
  | _, .null => some .null
  | _, .bool value => some (.bool value)
  | _, .number literal => literal.value?.map .number
  | _, .string symbols => (Symbol.text? symbols).map .string
  | 0, .array _ => none
  | 0, .object _ => none
  | room + 1, .array items => (items.mapM (Source.value? room)).map .array
  | room + 1, .object fields =>
      (fields.mapM fun (symbols, value) => do
        pure (← Symbol.text? symbols, ← Source.value? room value)).map
          fun values => .object (sortFields values)

end Json

end GameExport
