import GameExport.Bytes
import GameExport.Json.Decoder

/-! # Documents as bytes

A document may be given as bytes that are not text throughout. Inside a string that nobody
reads this does no harm, just as half of a pair does none there; so a byte that is no part of
a character is read as half of a pair. Everywhere else such a byte is an error.
-/

namespace GameExport.Json

def firstChar? (bytes : Bytes) : Option (Char × Nat) :=
  [1, 2, 3, 4].findSome? fun width =>
    match (Bytes.text? (bytes.take width)).map String.toList with
    | some [char] => some (char, width)
    | _ => none

def charsOf : Bytes → List (Option Char)
  | [] => []
  | byte :: rest =>
      match firstChar? (byte :: rest) with
      | some (char, width) => some char :: charsOf (rest.drop (width - 1))
      | none => none :: charsOf rest
  termination_by bytes => bytes.length
  decreasing_by all_goals simp; try omega

/-- Two second halves of pairs. Whatever stands before them, one of them is left over. -/
def standIn : List Char := "\\udc00\\udc00".toList

/-- The characters, with the stand-in for each that is missing. None may be missing right
after the backslash of an escape. -/
def masked? : (escaped : Bool) → List (Option Char) → Option (List Char)
  | _, [] => some []
  | true, none :: _ => none
  | false, none :: rest => (masked? false rest).map (standIn ++ ·)
  | escaped, some char :: rest => (masked? (char == '\\' && !escaped) rest).map (char :: ·)

def Source.ofBytes? (bytes : Bytes) : Option Source :=
  match Bytes.text? bytes with
  | some text => Source.read? text
  | none => do Source.read? (String.ofList (← masked? false (charsOf bytes)))

def Decoder.runBytes? {α : Type} (decoder : Decoder α) (bytes : Bytes) : Option α := do
  decoder nestingLimit (← Source.ofBytes? bytes)

example : charsOf [0xC3, 0x28, 0xC3, 0xA9] = [none, some '(', some 'é'] := by cbv

end GameExport.Json
