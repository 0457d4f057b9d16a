import GameExport.Project.Basic
import GameExport.Text.Lines
import GameExport.Unit

/-! # Statements of generated code

The body of a generated function is a list of statements, each at a depth. A statement is one
line of text. Strings of the project become string literals, in which quotes, backslashes,
line ends and tabs are escaped.
-/

namespace GameExport.Generation

def escape (char : Char) : List Char :=
  if char = '"' then ['\\', '"']
  else if char = '\\' then ['\\', '\\']
  else if char = '\n' then ['\\', 'n']
  else if char = '\r' then ['\\', 'r']
  else if char = '\t' then ['\\', 't']
  else [char]

def literal (text : String) : List Char := '"' :: text.toList.flatMap escape ++ ['"']

def argument : Argument → List Char
  | .value text => literal text
  | .file path => "ctx.Resource(".toList ++ literal path ++ [')']

def commaSeparated : List (List Char) → List Char
  | [] => []
  | [text] => text
  | text :: rest => text ++ ',' :: ' ' :: commaSeparated rest

def call (instruction : Instruction) : List Char :=
  "ctx.Call(".toList ++ literal instruction.name ++ ", \x7b".toList ++
    commaSeparated (instruction.arguments.map argument) ++ "\x7d);".toList

/-- One line of a body. -/
inductive Statement
  | openBlock
  | closeBlock
  | perform (instruction : Instruction)
  | native (line : List Char)
  | comment (line : List Char)
  /-- A link that names nothing. -/
  | unknownLink (target : String)
  | enter (sheet : String)
  /-- The start of the events of a unit that are written in place. -/
  | begin (unit : UnitName)
  | finish (unit : UnitName)
  deriving DecidableEq, Repr

def Statement.text : Statement → List Char
  | .openBlock => ['\x7b']
  | .closeBlock => ['\x7d']
  | .perform instruction => call instruction
  | .native line => line
  | .comment line => "// ".toList ++ line
  | .unknownLink target => s!"// Link to unknown events '{target}' ignored.".toList
  | .enter sheet => (UnitName.externalEvents sheet).entrySymbol.toList ++ "(ctx);".toList
  | .begin unit => s!"// Begin {unit.display}".toList
  | .finish unit => s!"// End {unit.display}".toList

structure Placed where
  depth : Nat
  statement : Statement
  deriving DecidableEq, Repr

/-- The line of a statement: four blanks for each level of depth. -/
def Placed.text (placed : Placed) : List Char :=
  List.replicate (4 * placed.depth) ' ' ++ placed.statement.text ++ ['\n']

end GameExport.Generation
