import GameExport.FileTree.Operations
import GameExport.Target

/-! # Extensions

What the extensions of the tool bring along: libraries to link and files to copy. A registry
holds one extension for each name, the one that was registered last.
-/

namespace GameExport

structure RuntimePart where
  libraries : List String
  /-- Files to copy next to the game, each for one target. -/
  files : List (Target × Path)
  deriving DecidableEq, Repr

structure Extension where
  name : String
  namespaceName : String
  runtime : Option RuntimePart
  deriving DecidableEq, Repr

namespace Extension

def builtin : String := "BuiltinCommonInstructions"

/-- The one extension without a namespace that has a runtime file. -/
def withoutNamespace : String := "CommonDialogs"

def hasRuntimeFile (extension : Extension) : Bool :=
  (extension.namespaceName != "" || extension.name == withoutNamespace) && extension.name != builtin

def runtimeFile (extension : Extension) : Target → String
  | .windows => extension.name ++ ".xgdw"
  | .linux => extension.name ++ ".xgd"
  | .mac => extension.name ++ ".xgd"

end Extension

namespace RuntimePart

def toJson (part : RuntimePart) : Json :=
  .object [("supplementary_lib_files", Json.strings part.libraries),
    ("supplementary_runtime_files", .array (part.files.map fun (target, path) =>
      .array [.string target.name, .string path.text]))]

def decodeFile : Json.Decoder (Target × Path)
  | room + 1, .array [target, path] => do
      pure (← Target.decode room target, ⟨← Json.Decoder.text room path⟩)
  | _, _ => none

def decode : Json.Decoder RuntimePart
  | room + 1, source => do
      match ← source.record? ["supplementary_lib_files", "supplementary_runtime_files"] with
      | [libraries, files] =>
          pure {
            libraries :=
              ← Json.fieldOr [] (Json.Decoder.list Json.Decoder.text) room libraries
            files := ← Json.fieldOr [] (Json.Decoder.list decodeFile) room files }
      | _ => none
  | _, _ => none

end RuntimePart

namespace Extension

def toJson (extension : Extension) : Json :=
  .object [("name", .string extension.name), ("namespace", .string extension.namespaceName),
    ("runtime", match extension.runtime with
      | some part => part.toJson
      | none => .null)]

def decode : Json.Decoder Extension
  | room + 1, source => do
      match ← source.record? ["name", "namespace", "runtime"] with
      | [name, namespaceName, runtime] =>
          pure {
            name := ← Json.fieldOr "" Json.Decoder.text room name
            namespaceName := ← Json.fieldOr "" Json.Decoder.text room namespaceName
            runtime := ← Json.fieldOr none (Json.Decoder.nullable RuntimePart.decode) room runtime }
      | _ => none
  | _, _ => none

end Extension

structure ExtensionRegistry where
  extensions : List Extension
  deriving DecidableEq, Repr

inductive RegistryError
  | read (path : Path) (cause : FileError)
  | parse (path : Path)
  deriving DecidableEq, Repr

def RegistryError.message : RegistryError → String
  | .read path cause => s!"failed to read extension registry {path.text}: {cause.message}"
  | .parse path => s!"failed to parse extension registry {path.text}: {Json.unreadable}"

namespace ExtensionRegistry

def empty : ExtensionRegistry := ⟨[]⟩

def get? (registry : ExtensionRegistry) (name : String) : Option Extension :=
  registry.extensions.find? fun extension => extension.name == name

/-- Make an extension known, in the place of an older one of its name. -/
def register (registry : ExtensionRegistry) (extension : Extension) : ExtensionRegistry :=
  ⟨registry.extensions.filter (fun other => other.name != extension.name) ++ [extension]⟩

def ofList (extensions : List Extension) : ExtensionRegistry := extensions.foldl register empty

def ofText? (text : String) : Option ExtensionRegistry :=
  ((Json.Decoder.list Extension.decode).run? text).map ofList

def load (files : FileTree) (path : Path) : Except RegistryError ExtensionRegistry :=
  match files.readText path with
  | .error cause => .error (.read path cause)
  | .ok text =>
      match ofText? text with
      | some registry => .ok registry
      | none => .error (.parse path)

def loadIfPresent (files : FileTree) (path : Path) : Except RegistryError ExtensionRegistry :=
  if files.pathExists path then load files path else .ok empty

theorem get?_register_self (registry : ExtensionRegistry) (extension : Extension) :
    (registry.register extension).get? extension.name = some extension := by
  have absent : (registry.extensions.filter fun other =>
      other.name != extension.name).find? (fun other => other.name == extension.name) = none := by
    simp
  simp [get?, register, List.find?_append, absent]

end ExtensionRegistry

def libraryExists (files : FileTree) (directory : Path) (name : String) : Bool :=
  files.pathExists (directory.child s!"lib{name}.a") ||
    files.pathExists (directory.child s!"lib{name}.dll.a")

end GameExport
