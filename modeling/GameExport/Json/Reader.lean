import GameExport.Json.Value

/-! # Reading JSON

The grammar of documents, as functions that take apart the front of a text and return what
is left. `Source.read?` accepts a text that is one document and nothing more.
-/

namespace GameExport.Json

def isBlank (char : Char) : Bool :=
  char == ' ' || char == '\n' || char == '\t' || char == '\r'

def skipBlank (text : List Char) : List Char := text.dropWhile isBlank

def hexValue? (char : Char) : Option Nat :=
  if '0' ≤ char ∧ char ≤ '9' then some (char.toNat - 48)
  else if 'a' ≤ char ∧ char ≤ 'f' then some (char.toNat - 87)
  else if 'A' ≤ char ∧ char ≤ 'F' then some (char.toNat - 55)
  else none

def codeUnit? (first second third fourth : Char) : Option Nat := do
  let a ← hexValue? first
  let b ← hexValue? second
  let c ← hexValue? third
  let d ← hexValue? fourth
  pure (a * 4096 + b * 256 + c * 16 + d)

/-- The character of a short escape. -/
def shortEscape? (char : Char) : Option Char :=
  if char = '"' ∨ char = '\\' ∨ char = '/' then some char
  else if char = 'b' then some '\x08'
  else if char = 'f' then some '\x0c'
  else if char = 'n' then some '\n'
  else if char = 'r' then some '\r'
  else if char = 't' then some '\t'
  else none

def readSymbols : List Char → Option (List Symbol × List Char)
  | [] => none
  | '"' :: rest => some ([], rest)
  | '\\' :: 'u' :: first :: second :: third :: fourth :: rest => do
      let unit ← codeUnit? first second third fourth
      let (symbols, rest) ← readSymbols rest
      pure (.unit unit :: symbols, rest)
  | '\\' :: char :: rest => do
      let value ← shortEscape? char
      let (symbols, rest) ← readSymbols rest
      pure (.char value :: symbols, rest)
  | char :: rest =>
      if char = '\\' ∨ char.toNat < 0x20 then none
      else do
        let (symbols, rest) ← readSymbols rest
        pure (.char char :: symbols, rest)

def readDigits : List Char → List Nat × List Char
  | [] => ([], [])
  | char :: rest =>
      if '0' ≤ char ∧ char ≤ '9' then
        let (digits, left) := readDigits rest
        ((char.toNat - 48) :: digits, left)
      else ([], char :: rest)

def readWhole? (text : List Char) : Option (List Nat × List Char) :=
  match readDigits text with
  | ([], _) => none
  | (0 :: _ :: _, _) => none
  | (digits, rest) => some (digits, rest)

def readFraction? : List Char → Option (Option (List Nat) × List Char)
  | '.' :: rest =>
      match readDigits rest with
      | ([], _) => none
      | (digits, rest) => some (some digits, rest)
  | text => some (none, text)

def readExponent? (text : List Char) : Option (Option (Bool × List Nat) × List Char) :=
  match text with
  | mark :: rest =>
      if mark = 'e' ∨ mark = 'E' then
        let (negative, digits) := match rest with
          | '-' :: rest => (true, rest)
          | '+' :: rest => (false, rest)
          | rest => (false, rest)
        match readDigits digits with
        | ([], _) => none
        | (digits, rest) => some (some (negative, digits), rest)
      else some (none, text)
  | [] => some (none, text)

def readLiteral? (text : List Char) : Option (Literal × List Char) := do
  let (negative, text) := match text with
    | '-' :: rest => (true, rest)
    | text => (false, text)
  let (whole, text) ← readWhole? text
  let (fraction, text) ← readFraction? text
  let (exponent, text) ← readExponent? text
  pure (⟨negative, whole, fraction, exponent⟩, text)

mutual
/-- A value. The first argument bounds the number of steps; twice the length of the text is
always enough. -/
def readValue : (steps : Nat) → List Char → Option (Source × List Char)
  | 0, _ => none
  | steps + 1, text =>
      match skipBlank text with
      | 'n' :: 'u' :: 'l' :: 'l' :: rest => some (.null, rest)
      | 't' :: 'r' :: 'u' :: 'e' :: rest => some (.bool true, rest)
      | 'f' :: 'a' :: 'l' :: 's' :: 'e' :: rest => some (.bool false, rest)
      | '"' :: rest => do
          let (symbols, rest) ← readSymbols rest
          pure (.string symbols, rest)
      | '[' :: rest =>
          match skipBlank rest with
          | ']' :: rest => some (.array [], rest)
          | rest => do
              let (items, rest) ← readItems steps rest
              pure (.array items, rest)
      | '\x7b' :: rest =>
          match skipBlank rest with
          | '\x7d' :: rest => some (.object [], rest)
          | rest => do
              let (fields, rest) ← readFields steps rest
              pure (.object fields, rest)
      | text => do
          let (literal, rest) ← readLiteral? text
          pure (.number literal, rest)

def readItems : (steps : Nat) → List Char → Option (List Source × List Char)
  | 0, _ => none
  | steps + 1, text => do
      let (item, rest) ← readValue steps text
      match skipBlank rest with
      | ',' :: rest => do
          let (items, rest) ← readItems steps rest
          pure (item :: items, rest)
      | ']' :: rest => pure ([item], rest)
      | _ => none

/-- The fields of an object up to its closing brace. -/
def readFields : (steps : Nat) → List Char → Option (List (List Symbol × Source) × List Char)
  | 0, _ => none
  | steps + 1, text =>
      match skipBlank text with
      | '"' :: rest => do
          let (name, rest) ← readSymbols rest
          match skipBlank rest with
          | ':' :: rest => do
              let (value, rest) ← readValue steps rest
              match skipBlank rest with
              | ',' :: rest => do
                  let (fields, rest) ← readFields steps rest
                  pure ((name, value) :: fields, rest)
              | '\x7d' :: rest => pure ([(name, value)], rest)
              | _ => none
          | _ => none
      | _ => none
end

def Source.read? (text : String) : Option Source := do
  let chars := text.toList
  let (source, rest) ← readValue (2 * chars.length + 2) chars
  if skipBlank rest = [] then pure source else none

end GameExport.Json
