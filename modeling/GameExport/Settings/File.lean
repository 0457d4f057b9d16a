import GameExport.FileTree.Operations
import GameExport.Settings.Basic
import GameExport.Toml.Reader

/-! # Settings files

Reading settings from a file. What the file does not set stays as it is by itself, and what
it sets beyond that is ignored.
-/

namespace GameExport

open Toml

def CompilerSettings.ofToml : Toml.Decoder CompilerSettings := fun value => do
  let texts := Decoder.list Decoder.text
  match ← value.record? fieldNames with
  | [program, includeDirectories, compileFlags, linkFlags] =>
      pure {
        program := ← fieldOr default.program Decoder.text program
        includeDirectories := (← fieldOr [] texts includeDirectories).map Path.mk
        compileFlags := ← fieldOr default.compileFlags texts compileFlags
        linkFlags := ← fieldOr default.linkFlags texts linkFlags }
  | _ => none

namespace Settings

def optional {α : Type} (decoder : Toml.Decoder α) : Option Value → Option (Option α)
  | none => some none
  | some value => (decoder value).map some

def ofToml : Toml.Decoder Settings := fun value => do
  let names := ["base_dir", "generated_dir", "temp_dir", "compiler", "job_timeout_secs",
    "yield_interval_ms"]
  match ← value.record? names with
  | [base, generated, temporary, compiler, jobSeconds, yieldMilliseconds] =>
      pure {
        base := ⟨← fieldOr "" Decoder.text base⟩
        generated := (← optional Decoder.text generated).map Path.mk
        temporary := (← optional Decoder.text temporary).map Path.mk
        compiler := ← fieldOr .default CompilerSettings.ofToml compiler
        jobSeconds := ← optional Decoder.natural jobSeconds
        yieldMilliseconds :=
          ← fieldOr (withBase ⟨""⟩).yieldMilliseconds Decoder.natural yieldMilliseconds }
  | _ => none

def ofText? (text : String) : Option Settings := do ofToml (← Toml.read? text)

end Settings

inductive SettingsError
  | read (path : Path) (cause : FileError)
  | parse (path : Path)
  deriving DecidableEq, Repr

def SettingsError.message : SettingsError → String
  | .read path cause => s!"failed to read config {path.text}: {cause.message}"
  | .parse path => s!"failed to parse config {path.text}: {Json.unreadable}"

def Settings.inFile (files : FileTree) (path : Path) : Except SettingsError Settings :=
  match files.readText path with
  | .error cause => .error (.read path cause)
  | .ok text =>
      match Settings.ofText? text with
      | some settings => .ok settings
      | none => .error (.parse path)

end GameExport
