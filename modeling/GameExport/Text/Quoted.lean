import GameExport.Text.Visible

/-! # Quoted texts

A text in double quotes, with everything visible: a character that does not show by itself is
written as its number.
-/

namespace GameExport.Text

def quotedChar (char : Char) : List Char :=
  if char = '\x00' then ['\\', '0']
  else if char = '\t' then ['\\', 't']
  else if char = '\r' then ['\\', 'r']
  else if char = '\n' then ['\\', 'n']
  else if char = '\\' ∨ char = '"' then ['\\', char]
  else if isVisible char then [char]
  else ['\\', 'u', '\x7b'] ++ Nat.toDigits 16 char.toNat ++ ['\x7d']

def quoted (text : String) : String :=
  String.ofList ('"' :: text.toList.flatMap quotedChar ++ ['"'])

example : quotedChar '\x1b' = "\\u\x7b1b\x7d".toList := by decide +kernel

end GameExport.Text
