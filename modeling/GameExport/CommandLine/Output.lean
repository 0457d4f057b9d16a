import GameExport.CommandLine.Failure
import GameExport.FileTree.Basic
import GameExport.Json.Printer

/-! # What commands print

A command prints to the standard output and to that for errors, changes files, and may fail.
Headings have a mark in front; items and statistics are moved in.
-/

namespace GameExport.CommandLine

structure Progression where
  files : FileTree
  output : Bytes
  errors : Bytes

abbrev CommandM := ExceptT Failure (StateM Progression)

def printBytes (bytes : Bytes) : CommandM Unit :=
  modify fun done => { done with output := done.output ++ bytes }

def printLine (text : String) : CommandM Unit := printBytes (Bytes.ofText (text ++ "\n"))

def warn (text : String) : CommandM Unit :=
  modify fun done => { done with errors := done.errors ++ Bytes.ofText text }

inductive Heading
  | success
  | information
  | warning
  | error
  deriving DecidableEq, Repr

def Heading.mark : Heading → String
  | .success => "✓"
  | .information => "•"
  | .warning => "⚠"
  | .error => "✗"

def printHeading (heading : Heading) (text : String) : CommandM Unit :=
  let line := s!"{heading.mark} {text}"
  match heading with
  | .success | .information => printLine line
  | .warning | .error => warn (line ++ "\n")

def arrow : String := "→"

def printItem (text : String) : CommandM Unit := printLine s!"  {arrow} {text}"

def printStatistic (label value : String) : CommandM Unit := printLine s!"  {label}: {value}"

def printJson (value : Json) : CommandM Unit := printLine value.prettyText

def countText (count : Nat) (word : String) : String :=
  if count = 1 then s!"{count} {word}" else s!"{count} {word}s"

def orFail {ε α : Type} (message : String) (causes : ε → List String) :
    Except ε α → CommandM α
  | .ok value => pure value
  | .error error => throw ⟨message, causes error⟩

end GameExport.CommandLine
