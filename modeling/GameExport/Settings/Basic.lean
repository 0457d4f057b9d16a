import GameExport.Json.Decoder
import GameExport.Path
import GameExport.Text.Duration

/-! # Settings

Where the tool is installed, where it writes, and how it runs the compiler. Most places follow
from the base directory.
-/

namespace GameExport

structure CompilerSettings where
  program : String
  includeDirectories : List Path
  compileFlags : List String
  linkFlags : List String
  deriving DecidableEq, Repr

namespace CompilerSettings

def default : CompilerSettings := ⟨"c++", [], ["-fPIC"], []⟩

instance : Inhabited CompilerSettings := ⟨default⟩

def fieldNames : List String := ["program", "include_dirs", "compile_flags", "link_flags"]

def toJson (settings : CompilerSettings) : Json :=
  .object [("program", .string settings.program),
    ("include_dirs", Json.strings (settings.includeDirectories.map Path.text)),
    ("compile_flags", Json.strings settings.compileFlags),
    ("link_flags", Json.strings settings.linkFlags)]

def decode : Json.Decoder CompilerSettings
  | room + 1, source => do
      let texts := Json.Decoder.list Json.Decoder.text
      match ← source.record? fieldNames with
      | [program, includeDirectories, compileFlags, linkFlags] =>
          pure {
            program := ← Json.fieldOr default.program Json.Decoder.text room program
            includeDirectories :=
              (← Json.fieldOr [] texts room includeDirectories).map Path.mk
            compileFlags := ← Json.fieldOr default.compileFlags texts room compileFlags
            linkFlags := ← Json.fieldOr default.linkFlags texts room linkFlags }
      | _ => none
  | _, _ => none

end CompilerSettings

structure Settings where
  base : Path
  generated : Option Path
  temporary : Option Path
  compiler : CompilerSettings
  jobSeconds : Option Nat
  /-- How many milliseconds an export waits before its host is free for a moment. -/
  yieldMilliseconds : Nat
  deriving DecidableEq, Repr

namespace Settings

/-- The settings with a base directory and everything else as it is by itself. -/
def withBase (base : Path) : Settings :=
  ⟨base, none, none, .default, none, 150⟩

instance : Inhabited Settings := ⟨withBase ⟨""⟩⟩

def platformDirectory (settings : Settings) : Path := settings.base.child "CppPlatform"

def generatedDirectory (settings : Settings) : Path :=
  settings.generated.getD (settings.platformDirectory.child "Generated")

def extensionsDirectory (settings : Settings) : Path :=
  (settings.platformDirectory.child "Extensions").child "Runtime"

def extensionsFile (settings : Settings) : Path :=
  (settings.platformDirectory.child "Extensions").child "extensions.json"

def runtimeDirectory (settings : Settings) : Path := settings.platformDirectory.child "Runtime"

def macRuntimeDirectory (settings : Settings) : Path :=
  settings.platformDirectory.child "MacRuntime"

def stubFile (settings : Settings) : Path := settings.base.child "7zS.sfx"

def stubSettingsFile (settings : Settings) : Path := settings.base.child "config.txt"

def loaderName : String := "dynext.dxgd"

def loaderFile (settings : Settings) : Path := settings.base.child loaderName

def jobLimit (settings : Settings) : Option Duration := settings.jobSeconds.map Duration.ofSeconds

/-- How long an export waits before its host is free for a moment: never no time. -/
def yieldInterval (settings : Settings) : Duration :=
  Duration.ofMilliseconds (max settings.yieldMilliseconds 1)

def logName : String := "LatestCompilationOutput.txt"

def logFile (settings : Settings) : Path := settings.generatedDirectory.child logName

def natOrNull : Option Nat → Json
  | some value => Json.nat value
  | none => .null

def toJson (settings : Settings) : Json :=
  .object [("base_dir", .string settings.base.text),
    ("generated_dir", Json.stringOrNull (settings.generated.map Path.text)),
    ("temp_dir", Json.stringOrNull (settings.temporary.map Path.text)),
    ("compiler", settings.compiler.toJson),
    ("job_timeout_secs", natOrNull settings.jobSeconds),
    ("yield_interval_ms", Json.nat settings.yieldMilliseconds)]

end Settings

end GameExport
