/-! # Lines of a text

A line ends at a line feed; a carriage return right before it belongs to the end of the
line. Text after the last line feed is a line if it is not empty.
-/

namespace GameExport.Text

def lines : List Char → List (List Char)
  | [] => []
  | '\n' :: rest => [] :: lines rest
  | '\r' :: '\n' :: rest => [] :: lines rest
  | char :: rest =>
      match lines rest with
      | [] => [[char]]
      | line :: others => (char :: line) :: others

example : lines "a\r\nb\r\n\nc\r".toList = [['a'], ['b'], [], ['c', '\r']] := by decide

theorem newline_notMem_lines {text line : List Char} (isLine : line ∈ lines text) :
    '\n' ∉ line := by
  fun_induction lines text generalizing line with
  | case1 => simp at isLine
  | case2 rest induction => simp at isLine; rcases isLine with rfl | later <;> grind
  | case3 rest induction => simp at isLine; rcases isLine with rfl | later <;> grind
  | case4 char rest notFeed notReturn noLines induction => grind
  | case5 char rest notFeed notReturn first others split induction => grind

def padLeft (width : Nat) (text : String) : String :=
  String.ofList (List.replicate (width - text.length) ' ') ++ text

def padRight (width : Nat) (text : String) : String :=
  text ++ String.ofList (List.replicate (width - text.length) ' ')

end GameExport.Text
