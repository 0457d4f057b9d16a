import GameExport.Cipher.Descriptor
import GameExport.Extension
import GameExport.Project.Storage
import GameExport.Package.Error
import GameExport.Settings.File
import GameExport.Text.Lines

/-! # Failures of commands

A command that fails says what it could not do, and why, each cause followed by its own. A
single cause stands alone; several are numbered.
-/

namespace GameExport.CommandLine

structure Failure where
  message : String
  /-- The causes, each with the one behind it next. -/
  causes : List String
  deriving DecidableEq, Repr

def Failure.plain (message : String) : Failure := ⟨message, []⟩

def hanging (width : Nat) (text : String) : String :=
  ("\n" ++ String.ofList (List.replicate width ' ')).intercalate (text.splitOn "\n")

def numberedCause (entry : String × Nat) : String :=
  Text.padLeft 5 (toString entry.2) ++ ": " ++ hanging 7 entry.1

def Failure.text (failure : Failure) : String :=
  let head := s!"Error: {failure.message}"
  match failure.causes with
  | [] => head
  | [cause] => s!"{head}\n\nCaused by:\n    {hanging 4 cause}"
  | causes => s!"{head}\n\nCaused by:\n" ++ "\n".intercalate (causes.zipIdx.map numberedCause)

end GameExport.CommandLine

namespace GameExport

def ProjectError.causes (error : ProjectError) : List String :=
  match error with
  | .read _ cause | .write _ cause => [error.message, cause.message]
  | .parse _ => [error.message, Json.unreadable]

def RegistryError.causes (error : RegistryError) : List String :=
  match error with
  | .read _ cause => [error.message, cause.message]
  | .parse _ => [error.message, Json.unreadable]

def SettingsError.causes (error : SettingsError) : List String :=
  match error with
  | .read _ cause => [error.message, cause.message]
  | .parse _ => [error.message, Json.unreadable]

def PackageError.causes (error : PackageError) : List String :=
  match error with
  | .io _ cause | .copy _ _ cause => [error.message, cause.message]
  | .invalidContainer .. => [error.message]

def CipherError.causes (error : CipherError) : List String :=
  match error with
  | .read _ cause | .write _ cause => [error.message, cause.message]
  | .length _ => [error.message]

end GameExport
