/-! # Words of settings files

Blanks, comments, names, strings and numbers, as functions that take apart the front of a
text and return what is left.
-/

namespace GameExport.Toml

def isBlank (char : Char) : Bool := char == ' ' || char == '\t'

def skipBlanks (text : List Char) : List Char := text.dropWhile isBlank

def isForbidden (char : Char) : Bool :=
  (char.toNat < 0x20 && char != '\t') || char.toNat == 0x7F

def lineEnd? : List Char → Option (List Char)
  | '\n' :: rest => some rest
  | '\r' :: '\n' :: rest => some rest
  | _ => none

def skipComment (text : List Char) : List Char :=
  match text with
  | '#' :: rest => rest.dropWhile fun char => !isForbidden char
  | text => text

def finishLine? (text : List Char) : Option (List Char) :=
  match skipComment (skipBlanks text) with
  | [] => some []
  | rest => lineEnd? rest

def skipLines : (steps : Nat) → List Char → List Char
  | 0, text => text
  | steps + 1, text =>
      let rest := skipComment (skipBlanks text)
      match lineEnd? rest with
      | some rest => skipLines steps rest
      | none => rest

def hexDigit? (char : Char) : Option Nat :=
  if '0' ≤ char ∧ char ≤ '9' then some (char.toNat - 48)
  else if 'a' ≤ char ∧ char ≤ 'f' then some (char.toNat - 87)
  else if 'A' ≤ char ∧ char ≤ 'F' then some (char.toNat - 55)
  else none

def codePoint? (digits : Nat) (text : List Char) : Option (Char × List Char) := do
  let front := text.take digits
  if front.length = digits then
    let values ← front.mapM hexDigit?
    let value := values.foldl (fun total digit => total * 16 + digit) 0
    if value.isValidChar then pure (Char.ofNat value, text.drop digits) else none
  else none

def escape? : List Char → Option (Char × List Char)
  | 'b' :: rest => some ('\x08', rest)
  | 't' :: rest => some ('\t', rest)
  | 'n' :: rest => some ('\n', rest)
  | 'f' :: rest => some ('\x0c', rest)
  | 'r' :: rest => some ('\r', rest)
  | 'e' :: rest => some ('\x1b', rest)
  | '"' :: rest => some ('"', rest)
  | '\\' :: rest => some ('\\', rest)
  | 'x' :: rest => codePoint? 2 rest
  | 'u' :: rest => codePoint? 4 rest
  | 'U' :: rest => codePoint? 8 rest
  | _ => none

def basicString? : (steps : Nat) → List Char → Option (List Char × List Char)
  | 0, _ => none
  | _, [] => none
  | _, '"' :: rest => some ([], rest)
  | steps + 1, '\\' :: rest => do
      let (char, rest) ← escape? rest
      let (chars, rest) ← basicString? steps rest
      pure (char :: chars, rest)
  | steps + 1, char :: rest =>
      if isForbidden char then none
      else do
        let (chars, rest) ← basicString? steps rest
        pure (char :: chars, rest)

def literalString? : List Char → Option (List Char × List Char)
  | [] => none
  | '\x27' :: rest => some ([], rest)
  | char :: rest =>
      if isForbidden char then none
      else do
        let (chars, rest) ← literalString? rest
        pure (char :: chars, rest)

/-- Up to two quotes that belong to a string although its closing quotes follow, and what is
behind the closing quotes; nothing if the string is not closed here. -/
def closing? (quote : Char) (text : List Char) : Option (List Char × List Char) :=
  let count := min 5 (text.takeWhile (· == quote)).length
  if 3 ≤ count then some (List.replicate (count - 3) quote, text.drop count) else none

/-- Skip the blanks and ends of lines after a backslash at the end of a line. -/
def skipFold : (steps : Nat) → List Char → List Char
  | 0, text => text
  | steps + 1, text =>
      let rest := skipBlanks text
      match lineEnd? rest with
      | some rest => skipFold steps rest
      | none => rest

/-- A string of several lines in double quotes, after the first three. The ends of its lines
stay as they are. -/
def basicLines? : (steps : Nat) → List Char → Option (List Char × List Char)
  | 0, _ => none
  | steps + 1, text =>
      match closing? '"' text with
      | some result => some result
      | none =>
          match text with
          | [] => none
          | '\\' :: rest =>
              match lineEnd? (skipBlanks rest) with
              | some folded => basicLines? steps (skipFold folded.length.succ folded)
              | none => do
                  let (char, rest) ← escape? rest
                  let (chars, rest) ← basicLines? steps rest
                  pure (char :: chars, rest)
          | char :: rest =>
              if isForbidden char && (lineEnd? (char :: rest)).isNone then none
              else do
                let (chars, rest) ← basicLines? steps rest
                pure (char :: chars, rest)

def literalLines? : (steps : Nat) → List Char → Option (List Char × List Char)
  | 0, _ => none
  | steps + 1, text =>
      match closing? '\x27' text with
      | some result => some result
      | none =>
          match text with
          | [] => none
          | char :: rest =>
              if isForbidden char && (lineEnd? (char :: rest)).isNone then none
              else do
                let (chars, rest) ← literalLines? steps rest
                pure (char :: chars, rest)

def dropLineEnd (text : List Char) : List Char := (lineEnd? text).getD text

def string? (text : List Char) : Option (String × List Char) :=
  let named : Option (List Char × List Char) → Option (String × List Char) :=
    fun result => result.map fun (chars, rest) => (String.ofList chars, rest)
  match text with
  | '"' :: '"' :: '"' :: rest => named (basicLines? rest.length.succ (dropLineEnd rest))
  | '\x27' :: '\x27' :: '\x27' :: rest => named (literalLines? rest.length.succ (dropLineEnd rest))
  | '"' :: rest => named (basicString? rest.length.succ rest)
  | '\x27' :: rest => named (literalString? rest)
  | _ => none

def isNameChar (char : Char) : Bool := char.isAlphanum || char == '_' || char == '-'

def namePart? (text : List Char) : Option (String × List Char) :=
  match text with
  | '"' :: rest =>
      (basicString? rest.length.succ rest).map fun (chars, rest) => (String.ofList chars, rest)
  | '\x27' :: rest => (literalString? rest).map fun (chars, rest) => (String.ofList chars, rest)
  | text =>
      let chars := text.takeWhile isNameChar
      if chars = [] then none else some (String.ofList chars, text.drop chars.length)

def partLimit : Nat := 80

def nameParts? : (steps : Nat) → List Char → Option (List String × List Char)
  | 0, _ => none
  | steps + 1, text => do
      let (first, rest) ← namePart? (skipBlanks text)
      match skipBlanks rest with
      | '.' :: rest => do
          let (others, rest) ← nameParts? steps rest
          pure (first :: others, rest)
      | rest => pure ([first], rest)

def name? (text : List Char) : Option (List String × List Char) := nameParts? partLimit text

end GameExport.Toml
