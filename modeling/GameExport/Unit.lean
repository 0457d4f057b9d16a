import GameExport.Path
import GameExport.Json.Decoder

/-! # Units

A unit is what becomes one object file: a scene, a sheet of external events, or a source
file. Names are mangled so that they can stand in file names and in identifiers: letters
and digits of ASCII stay, every other character becomes its number between underscores.
-/

namespace GameExport

inductive UnitName
  | scene (name : String)
  | externalEvents (name : String)
  | sourceFile (name : String)
  deriving DecidableEq, Repr

def mangleChar (char : Char) : List Char :=
  if char.isAlphanum then [char] else '_' :: Nat.toDigits 10 char.toNat ++ ['_']

/-- A name made fit for file names and identifiers. -/
def mangle (name : String) : String := String.ofList (name.toList.flatMap mangleChar)

namespace UnitName

def name : UnitName → String
  | .scene name => name
  | .externalEvents name => name
  | .sourceFile name => name

def kind : UnitName → String
  | .scene _ => "scene"
  | .externalEvents _ => "external_events"
  | .sourceFile _ => "source_file"

def tag : UnitName → String
  | .scene _ => "Scene"
  | .externalEvents _ => "Ext"
  | .sourceFile _ => "Src"

def stem (unit : UnitName) : String := "GD" ++ unit.tag ++ mangle unit.name

def display : UnitName → String
  | .scene name => s!"scene '{name}'"
  | .externalEvents name => s!"external events '{name}'"
  | .sourceFile name => s!"source file '{name}'"

/-- The function that a unit's events are compiled into. -/
def entrySymbol (unit : UnitName) : String := unit.stem ++ "Run"

def ofKind? (kind name : String) : Option UnitName :=
  [UnitName.scene name, .externalEvents name, .sourceFile name].find?
    fun unit => unit.kind == kind

def toJson (unit : UnitName) : Json :=
  .object [("kind", .string unit.kind), ("name", .string unit.name)]

/-- A unit from a document: its kind and its name, both given. In an array the kind is a plain
text. -/
def decode : Json.Decoder UnitName
  | room + 1, source => do
      let kindDecoder := match source with
        | .array _ => Json.Decoder.text
        | _ => Json.Decoder.choice some
      match ← source.record? ["kind", "name"] with
      | [kind, name] =>
          ofKind? (← Json.fieldRequired kindDecoder room kind)
            (← Json.fieldRequired Json.Decoder.text room name)
      | _ => none
  | _, _ => none

end UnitName

structure UnitFiles where
  unit : UnitName
  source : Path
  object : Path
  deriving DecidableEq, Repr

namespace UnitFiles

def sourceEnding : String := "RuntimeEventsSource.cpp"

def objectEnding : String := "RuntimeObjectFile.o"

def objectPath (unit : UnitName) (generated : Path) : Path :=
  generated.child (unit.stem ++ objectEnding)

def generated (unit : UnitName) (directory : Path) : UnitFiles where
  unit := unit
  source := directory.child (unit.stem ++ sourceEnding)
  object := objectPath unit directory

/-- The files of a source file of the project. A relative file lies below `base`. -/
def native (name : String) (file : Path) (base directory : Path) : UnitFiles where
  unit := .sourceFile name
  source := base.join file
  object := objectPath (.sourceFile name) directory

def toJson (files : UnitFiles) : Json :=
  .object [("unit", files.unit.toJson), ("source", .string files.source.text),
    ("object", .string files.object.text)]

end UnitFiles

end GameExport
