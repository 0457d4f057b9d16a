import GameExport.Settings.File

/-! # Settings from the environment

Some environment variables go before the settings file, and others say where to look for it
and where temporary files go. The working directory is made in the first place in which a
file can be created.
-/

namespace GameExport

abbrev Environment := List (String × String)

namespace Environment

def path? (environment : Environment) (name : String) : Option Path :=
  (environment.lookup name).map Path.mk

def toolName : String := "gamepack"

def home? (environment : Environment) : Option Path := environment.path? "HOME"

def settingsDirectory? (environment : Environment) : Option Path :=
  ((environment.path? "XDG_CONFIG_HOME").or
    (environment.home?.map fun home => home.child ".config")).map
    fun directory => directory.child toolName

def currentDirectory (files : FileTree) : Path := Path.ofNames files.start

def baseDirectory (environment : Environment) (files : FileTree) : Path :=
  (environment.path? "GAMEPACK_HOME").getD (currentDirectory files)

def temporaryDirectory (environment : Environment) : Path :=
  (environment.path? "TMPDIR").getD ⟨"/tmp"⟩

def isWritable (files : FileTree) (directory : Path) : Bool := files.isDirectory directory

end Environment

namespace Settings

/-- The settings file to read: the one asked for, or the one in the tool's directory if it is
there. -/
def file? (environment : Environment) (files : FileTree) (asked : Option Path) : Option Path :=
  match asked with
  | some path => some path
  | none =>
      match environment.settingsDirectory? with
      | some directory =>
          let path := directory.child "config.toml"
          if files.pathExists path then some path else none
      | none => none

def override (settings : Settings) (environment : Environment) (files : FileTree) : Settings :=
  { settings with
    base :=
      if settings.base.text = "" ∨ (environment.path? "GAMEPACK_HOME").isSome then
        environment.baseDirectory files
      else settings.base
    temporary := (environment.path? "GAMEPACK_TEMP_DIR").or settings.temporary
    compiler := { settings.compiler with
      program := (environment.lookup "GAMEPACK_COMPILER").getD settings.compiler.program } }

def load (environment : Environment) (files : FileTree) (asked : Option Path) :
    Except SettingsError Settings := do
  let settings ← match file? environment files asked with
    | some path => inFile files path
    | none => .ok (withBase ⟨""⟩)
  .ok (settings.override environment files)

def workingName : String := "GDDeploymentTemporaries"

/-- The working directory: in the place that is set, or in the first of the system's temporary
directory, the current one and the home directory in which a file can be created. -/
def workingDirectory (settings : Settings) (environment : Environment) (files : FileTree) :
    Path :=
  match settings.temporary with
  | some directory => directory.child workingName
  | none =>
      let places := [environment.temporaryDirectory, Environment.currentDirectory files] ++
        environment.home?.toList
      let place := (places.find? (Environment.isWritable files)).getD
        environment.temporaryDirectory
      place.child workingName

end Settings

end GameExport
