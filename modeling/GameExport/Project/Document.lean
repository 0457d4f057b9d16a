import GameExport.Project.Basic
import GameExport.Json.Decoder

/-! # Projects as documents

How a project is written as a document and read from one. Every field has a default except
the target of a link and the kind of an event. What only the editor uses is left out when
there is none.
-/

namespace GameExport

open Json

namespace Argument

/-- An argument as a document: one field, named for its kind. -/
def toJson : Argument → Json
  | .value text => .object [("value", .string text)]
  | .file path => .object [("file", .string path)]

def decode : Decoder Argument
  | room + 1, .object [(symbols, source)] => do
      let kind ← Symbol.text? symbols
      let text ← Decoder.text room source
      if kind = "value" then some (.value text)
      else if kind = "file" then some (.file text)
      else none
  | _, _ => none

end Argument

namespace Instruction

def toJson (instruction : Instruction) : Json :=
  .object [("name", .string instruction.name),
    ("args", .array (instruction.arguments.map Argument.toJson))]

def decode : Decoder Instruction
  | room + 1, source => do
      match ← source.record? ["name", "args"] with
      | [name, arguments] =>
          pure {
            name := ← fieldOr "" Decoder.text room name
            arguments := ← fieldOr [] (Decoder.list Argument.decode) room arguments }
      | _ => none
  | _, _ => none

end Instruction

inductive EventKind
  | standard
  | link
  | code
  | comment
  deriving DecidableEq, Repr

namespace EventKind

def all : List EventKind := [.standard, .link, .code, .comment]

def name : EventKind → String
  | .standard => "standard"
  | .link => "link"
  | .code => "code"
  | .comment => "comment"

def fields : EventKind → List String
  | .standard => ["instructions", "sub_events"]
  | .link => ["target"]
  | .code => ["code", "dependencies", "sub_events"]
  | .comment => ["text"]

def decode (inner : Bool) : Source → Option EventKind
  | .string symbols => do
      let text ← Symbol.text? symbols
      all.find? fun kind => kind.name == text
  | .number literal =>
      match inner, literal.value? with
      | true, some (.natural index) => all[index.toNat]?
      | _, _ => none
  | _ => none

end EventKind

namespace Event

mutual
def toJson : Event → Json
  | .standard instructions subEvents =>
      .object [("type", .string "standard"),
        ("instructions", .array (instructions.map Instruction.toJson)),
        ("sub_events", .array (listToJson subEvents))]
  | .link target => .object [("type", .string "link"), ("target", .string target)]
  | .code text dependencies subEvents =>
      .object [("type", .string "code"), ("code", .string text),
        ("dependencies", strings dependencies), ("sub_events", .array (listToJson subEvents))]
  | .comment text => .object [("type", .string "comment"), ("text", .string text)]

def listToJson : List Event → List Json
  | [] => []
  | event :: rest => event.toJson :: listToJson rest
end

def kindField : String := "type"

def parts? (inner : Bool) : Source → Option (EventKind × List (Option Source))
  | .object fields => do
      let fields ← namedFields? fields
      match valuesOf kindField fields with
      | [kind] =>
          let kind ← EventKind.decode inner kind
          let slots ← slots? kind.fields (fields.filter fun field => field.1 != kindField)
          pure (kind, slots)
      | _ => none
  | .array (kind :: items) => do
      let kind ← EventKind.decode inner kind
      let slots ← positions? kind.fields items
      pure (kind, slots)
  | _ => none

/-- An event from a document, all of whose parts are known to be readable. -/
def decodeReadable : (inner : Bool) → Decoder Event
  | inner, room + 1, source => do
      let below : Option Source → Option (List Event) := fun
        | none => some []
        | some (.array items) =>
            match room with
            | 0 => none
            | room + 1 => items.mapM (decodeReadable true room)
        | some _ => none
      match ← parts? inner source with
      | (.standard, [instructions, subEvents]) =>
          pure (.standard (← fieldOr [] (Decoder.list Instruction.decode) room instructions)
            (← below subEvents))
      | (.link, [target]) => pure (.link (← fieldRequired Decoder.text room target))
      | (.code, [text, dependencies, subEvents]) =>
          pure (.code (← fieldOr "" Decoder.text room text)
            (← fieldOr [] (Decoder.list Decoder.text) room dependencies) (← below subEvents))
      | (.comment, [text]) => pure (.comment (← fieldOr "" Decoder.text room text))
      | _ => none
  | _, _, _ => none

/-- An event from a document. Before its kind is known all of it has to be readable, unknown
fields as well. -/
def decode : Decoder Event := fun room source =>
  match source.value? room with
  | some _ => decodeReadable false room source
  | none => none

end Event

def EditorData.decode : Decoder EditorData
  | room, .object fields =>
      match read : (Source.object fields).value? room with
      | some (.object values) => some ⟨values, sorted_of_value? read⟩
      | _ => none
  | _, _ => none

def EditorData.field : Option EditorData → List (String × Json)
  | some editor => [("editor", .object editor.val)]
  | none => []

namespace GameObject

def toJson (object : GameObject) : Json :=
  .object [("name", .string object.name), ("kind", .string object.kind),
    ("resources", strings object.resources)]

def decode : Decoder GameObject
  | room + 1, source => do
      match ← source.record? ["name", "kind", "resources"] with
      | [name, kind, resources] =>
          pure {
            name := ← fieldOr "" Decoder.text room name
            kind := ← fieldOr "" Decoder.text room kind
            resources := ← fieldOr [] (Decoder.list Decoder.text) room resources }
      | _ => none
  | _, _ => none

end GameObject

namespace Scene

def toJson (scene : Scene) : Json :=
  .object ([("name", .string scene.name),
    ("objects", .array (scene.objects.map GameObject.toJson)),
    ("events", .array (Event.listToJson scene.events)),
    ("profiler_enabled", .bool scene.profilerEnabled)] ++ EditorData.field scene.editor)

def decode : Decoder Scene
  | room + 1, source => do
      match ← source.record? ["name", "objects", "events", "profiler_enabled", "editor"] with
      | [name, objects, events, profilerEnabled, editor] =>
          pure {
            name := ← fieldOr "" Decoder.text room name
            objects := ← fieldOr [] (Decoder.list GameObject.decode) room objects
            events := ← fieldOr [] (Decoder.list Event.decode) room events
            profilerEnabled := ← fieldOr false Decoder.flag room profilerEnabled
            editor := ← fieldOr none (Decoder.nullable EditorData.decode) room editor }
      | _ => none
  | _, _ => none

end Scene

namespace ExternalEvents

def toJson (sheet : ExternalEvents) : Json :=
  .object [("name", .string sheet.name), ("associated_scene", .string sheet.associatedScene),
    ("events", .array (Event.listToJson sheet.events))]

def decode : Decoder ExternalEvents
  | room + 1, source => do
      match ← source.record? ["name", "associated_scene", "events"] with
      | [name, associatedScene, events] =>
          pure {
            name := ← fieldOr "" Decoder.text room name
            associatedScene := ← fieldOr "" Decoder.text room associatedScene
            events := ← fieldOr [] (Decoder.list Event.decode) room events }
      | _ => none
  | _, _ => none

end ExternalEvents

namespace SourceFile

def toJson (source : SourceFile) : Json :=
  .object [("name", .string source.name), ("file", .string source.file),
    ("language", .string source.language)]

def decode : Decoder SourceFile
  | room + 1, source => do
      match ← source.record? ["name", "file", "language"] with
      | [name, file, language] =>
          pure {
            name := ← fieldOr "" Decoder.text room name
            file := ← fieldOr "" Decoder.text room file
            language := ← fieldOr "" Decoder.text room language }
      | _ => none
  | _, _ => none

end SourceFile

namespace Resource

def toJson (resource : Resource) : Json :=
  .object [("name", .string resource.name), ("kind", .string resource.kind),
    ("file", .string resource.file), ("use_file", .bool resource.usesFile)]

def decode : Decoder Resource
  | room + 1, source => do
      match ← source.record? ["name", "kind", "file", "use_file"] with
      | [name, kind, file, usesFile] =>
          pure {
            name := ← fieldOr "" Decoder.text room name
            kind := ← fieldOr "" Decoder.text room kind
            file := ← fieldOr "" Decoder.text room file
            usesFile := ← fieldOr true Decoder.flag room usesFile }
      | _ => none
  | _, _ => none

end Resource

namespace Project

def fieldNames : List String :=
  ["name", "scenes", "external_events", "source_files", "resources", "objects",
    "used_extensions", "win_executable_filename", "linux_executable_filename",
    "mac_executable_filename", "use_external_source_files", "editor"]

def toJson (project : Project) : Json :=
  .object ([("name", .string project.name),
    ("scenes", .array (project.scenes.map Scene.toJson)),
    ("external_events", .array (project.externalEvents.map ExternalEvents.toJson)),
    ("source_files", .array (project.sourceFiles.map SourceFile.toJson)),
    ("resources", .array (project.resources.map Resource.toJson)),
    ("objects", .array (project.objects.map GameObject.toJson)),
    ("used_extensions", strings project.extensions),
    ("win_executable_filename", .string project.windowsExecutable),
    ("linux_executable_filename", .string project.linuxExecutable),
    ("mac_executable_filename", .string project.macExecutable),
    ("use_external_source_files", .bool project.usesExternalSources)] ++
    EditorData.field project.editor)

def decode (file : Path) : Decoder Project
  | room + 1, source => do
      match ← source.record? fieldNames with
      | [name, scenes, externalEvents, sourceFiles, resources, objects, extensions,
          windowsExecutable, linuxExecutable, macExecutable, usesExternalSources, editor] =>
          pure {
            name := ← fieldOr "" Decoder.text room name
            file := file
            scenes := ← fieldOr [] (Decoder.list Scene.decode) room scenes
            externalEvents :=
              ← fieldOr [] (Decoder.list ExternalEvents.decode) room externalEvents
            sourceFiles := ← fieldOr [] (Decoder.list SourceFile.decode) room sourceFiles
            resources := ← fieldOr [] (Decoder.list Resource.decode) room resources
            objects := ← fieldOr [] (Decoder.list GameObject.decode) room objects
            extensions := ← fieldOr [] (Decoder.list Decoder.text) room extensions
            windowsExecutable := ← fieldOr "" Decoder.text room windowsExecutable
            linuxExecutable := ← fieldOr "" Decoder.text room linuxExecutable
            macExecutable := ← fieldOr "" Decoder.text room macExecutable
            usesExternalSources := ← fieldOr false Decoder.flag room usesExternalSources
            editor := ← fieldOr none (Decoder.nullable EditorData.decode) room editor }
      | _ => none
  | _, _ => none

def text (project : Project) : String := prettyText project.toJson

def ofText? (file : Path) (text : String) : Option Project := (decode file).run? text

end Project

end GameExport
