import GameExport.Notice.Basic
import GameExport.Text.Lines

/-! # Notices on a terminal

Two ways of showing notices: as plain lines, or as one line that is drawn again and again.
-/

namespace GameExport

def wholePercent (progress : Progress) : Nat := BinaryFormat.single.floor progress.pattern

structure PlainLines where
  errors : List String
  shown : Option Nat
  deriving DecidableEq, Repr

namespace PlainLines

def step (plain : PlainLines) : Notice Progress → List String × PlainLines
  | .message text detail => ([Notice.line text detail], plain)
  | .progress value =>
      let whole := wholePercent value
      if plain.shown = some whole then ([], plain)
      else ([s!"[{Text.padLeft 3 (toString whole)}%]"], { plain with shown := some whole })
  | .error text => ([], { plain with errors := plain.errors ++ [text] })
  | .failed => ("Build failed." :: plain.errors.map ("  - " ++ ·), plain)
  | .succeeded => (["Build succeeded."], plain)
  | .idle => ([], plain)

def lines (plain : PlainLines) : List (Notice Progress) → List String
  | [] => []
  | notice :: rest =>
      let (shown, plain) := plain.step notice
      shown ++ lines plain rest

end PlainLines

/-- What a status line shows: a spinner, the percentage and the last message. -/
structure StatusLine where
  progress : Progress
  status : String
  frame : Nat
  deriving DecidableEq, Repr

namespace StatusLine

def start : StatusLine := ⟨.percent 0, "", 0⟩

def spinner : List Char := ['|', '/', '-', '\\']

def draw (line : StatusLine) : String :=
  let frame := spinner.getD (line.frame % spinner.length) '|'
  let percent := toString (BinaryFormat.single.round line.progress.pattern)
  s!"\r{frame} [{Text.padLeft 3 percent}%] {line.status}\x1b[K"

def step (line : StatusLine) : Notice Progress → String × StatusLine
  | .message text detail =>
      let line := { line with status := Notice.line text detail }
      (line.draw, line)
  | .progress value =>
      let line := { line with progress := value }
      (line.draw, line)
  | .error _ => ("", line)
  | .failed => ("\n", line)
  | .succeeded => ("\n", line)
  | .idle =>
      let line := { line with frame := line.frame + 1 }
      (line.draw, line)

def text (line : StatusLine) : List (Notice Progress) → String
  | [] => ""
  | notice :: rest =>
      let (shown, line) := line.step notice
      shown ++ text line rest

end StatusLine

end GameExport
