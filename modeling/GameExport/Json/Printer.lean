import GameExport.Json.Value

/-! # Writing JSON

Two forms: compact, and indented by two spaces a level. In a string only the quote, the
backslash and the control characters are escaped.
-/

namespace GameExport.Json

def hexDigit (value : Nat) : Char :=
  if value < 10 then Char.ofNat (48 + value) else Char.ofNat (87 + value)

def escape (char : Char) : List Char :=
  if char = '"' then ['\\', '"']
  else if char = '\\' then ['\\', '\\']
  else if char = '\x08' then ['\\', 'b']
  else if char = '\x0c' then ['\\', 'f']
  else if char = '\n' then ['\\', 'n']
  else if char = '\r' then ['\\', 'r']
  else if char = '\t' then ['\\', 't']
  else if char.toNat < 0x20 then
    ['\\', 'u', '0', '0', hexDigit (char.toNat / 16), hexDigit (char.toNat % 16)]
  else [char]

/-- A string with its quotes. -/
def quote (text : String) : List Char := '"' :: text.toList.flatMap escape ++ ['"']

def Number.chars : Number → List Char
  | .natural value => Nat.toDigits 10 value.toNat
  | .negative below => '-' :: Nat.toDigits 10 (below.val + 1)
  | .float value => value.text

mutual
def compact : Json → List Char
  | .null => ['n', 'u', 'l', 'l']
  | .bool true => ['t', 'r', 'u', 'e']
  | .bool false => ['f', 'a', 'l', 's', 'e']
  | .number value => value.chars
  | .string value => quote value
  | .array [] => ['[', ']']
  | .array (item :: rest) => '[' :: compact item ++ compactItems rest ++ [']']
  | .object [] => ['\x7b', '\x7d']
  | .object ((name, value) :: rest) =>
      '\x7b' :: quote name ++ ':' :: compact value ++ compactFields rest ++ ['\x7d']

def compactItems : List Json → List Char
  | [] => []
  | item :: rest => ',' :: compact item ++ compactItems rest

def compactFields : List (String × Json) → List Char
  | [] => []
  | (name, value) :: rest =>
      ',' :: quote name ++ ':' :: compact value ++ compactFields rest
end

def newLine (level : Nat) : List Char := '\n' :: List.replicate (2 * level) ' '

mutual
def pretty : (level : Nat) → Json → List Char
  | _, .null => ['n', 'u', 'l', 'l']
  | _, .bool true => ['t', 'r', 'u', 'e']
  | _, .bool false => ['f', 'a', 'l', 's', 'e']
  | _, .number value => value.chars
  | _, .string value => quote value
  | _, .array [] => ['[', ']']
  | level, .array (item :: rest) =>
      '[' :: newLine (level + 1) ++ pretty (level + 1) item ++
        prettyItems (level + 1) rest ++ newLine level ++ [']']
  | _, .object [] => ['\x7b', '\x7d']
  | level, .object ((name, value) :: rest) =>
      '\x7b' :: newLine (level + 1) ++ quote name ++ ':' :: ' ' :: pretty (level + 1) value ++
        prettyFields (level + 1) rest ++ newLine level ++ ['\x7d']

def prettyItems : (level : Nat) → List Json → List Char
  | _, [] => []
  | level, item :: rest => ',' :: newLine level ++ pretty level item ++ prettyItems level rest

def prettyFields : (level : Nat) → List (String × Json) → List Char
  | _, [] => []
  | level, (name, value) :: rest =>
      ',' :: newLine level ++ quote name ++ ':' :: ' ' :: pretty level value ++
        prettyFields level rest
end

def compactText (value : Json) : String := String.ofList (compact value)

def prettyText (value : Json) : String := String.ofList (pretty 0 value)

end GameExport.Json
