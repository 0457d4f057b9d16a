import GameExport.Export.Linking
import GameExport.Package.Files

/-! # The files that a game needs on its platforms

Launchers and runtime libraries of all targets, the loader for native code, and what the
extensions bring along. Without some of them a game cannot start.
-/

namespace GameExport

open ExportM

variable (tool : ExportTool) (request : ExportRequest)

structure PlatformFile where
  source : Path
  name : String
  /-- Whether the game cannot start without it. -/
  isRequired : Bool
  deriving DecidableEq, Repr

def compressedLauncher : String := "internalstart.exe"

/-- Whether the game becomes a self-extracting executable: if that is asked for and all targets
have such. -/
def ExportOptions.isCompressed (options : ExportOptions) : Bool :=
  options.compress && options.targets.toList.all Target.supportsCompression

def withoutRepeats : List String → List String
  | first :: second :: rest =>
      if first = second then withoutRepeats (second :: rest)
      else first :: withoutRepeats (second :: rest)
  | short => short

def extensionFiles (targets : TargetSet) (extension : Extension) (part : RuntimePart) :
    List PlatformFile :=
  let names :=
    if extension.hasRuntimeFile then
      withoutRepeats (targets.toList.map extension.runtimeFile)
    else []
  let own := names.map fun name =>
    { source := tool.settings.extensionsDirectory.child name, name, isRequired := false }
  let others := part.files.filter fun file => targets.contains file.1
  own ++ others.map fun (_, path) => { source := path, name := path.fileName, isRequired := false }

def loaderFiles (project : Project) : List PlatformFile :=
  if project.usesExternalSources then
    [{ source := tool.settings.loaderFile, name := Settings.loaderName, isRequired := false }]
  else []

def runtimeFiles (options : ExportOptions) (project : Project) : Target → List PlatformFile
  | .windows =>
      let directory := tool.settings.runtimeDirectory
      let launcher :=
        if options.isCompressed then compressedLauncher else project.windowsName
      [⟨directory.child "PlayWin.exe", launcher, true⟩,
        ⟨directory.child "GDCpp.dll", "GDCpp.dll", true⟩]
  | .linux =>
      let directory := tool.settings.runtimeDirectory
      [⟨directory.child "ExeLinux", "ExeLinux", true⟩,
        ⟨directory.child "PlayLinux", project.linuxName, false⟩,
        ⟨directory.child "libGDCpp.so", "libGDCpp.so", true⟩]
  | .mac =>
      let directory := tool.settings.macRuntimeDirectory
      [⟨directory.child "MacExe", project.macName, true⟩,
        ⟨directory.child "libGDCpp.dylib", "libGDCpp.dylib", true⟩]

def platformFiles (options : ExportOptions) (project : Project) : List PlatformFile :=
  ((runtimeParts tool project).flatMap fun (extension, part) =>
      extensionFiles tool options.targets extension part) ++
    loaderFiles tool project ++
    options.targets.toList.flatMap (runtimeFiles tool options project)

def copyPlatformFile (file : PlatformFile) : ExportM Unit :=
  attempt request
    (fun files => Package.copyFile files file.source (tool.workingDirectory.child file.name))
    (.platformFileNotCopied file.source file.isRequired)

def copyPlatformFiles : ExportM Unit := do
  let options := request.options
  say request "Exporting game..." none
  if options.compress && !options.isCompressed then
    say request "Compression skipped"
      (some "only a Windows-only export can be compressed, files are copied instead")
  (platformFiles tool options (← get).project).forM (copyPlatformFile tool request)
  progress request (.percent 95)

end GameExport
