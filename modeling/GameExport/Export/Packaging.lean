import GameExport.Export.PlatformFiles
import GameExport.Export.Resources

/-! # Packaging a game

The game goes to the output directory: as it is, file by file, or as one executable that
extracts itself, which is a stub, its settings and an archive of all files, one after the other.
-/

namespace GameExport

open ExportM

variable (tool : ExportTool) (request : ExportRequest)

def archiveName : String := "archive.zip"

def addArtifact (path : Path) : ExportM Unit :=
  modify fun state => { state with artifacts := state.artifacts ++ [path] }

def exportFile (name : String) : ExportM Unit := do
  let target := request.options.output.child name
  match Package.copyFile (← get).files (tool.workingDirectory.child name) target with
  | .ok files =>
      modify fun state => state.withFiles files
      addArtifact target
  | .error cause => record request (.notPackaged target false cause)

def packageVerbatim : ExportM Unit := do
  let directory := tool.workingDirectory
  match Package.listFiles (← get).files directory with
  | .error cause => throw (.notPackaged directory true cause)
  | .ok names => names.forM (exportFile tool request)

def packageCompressed : ExportM Unit := do
  say request "Exporting game... ( Compressing )" none
  let directory := tool.workingDirectory
  let archive := directory.child archiveName
  match ← changingFiles fun files => tool.archive files directory archive with
  | .error cause => record request (.notPackaged archive false cause)
  | .ok () => pure ()
  let executable := request.options.output.child (← get).project.windowsName
  let parts := [tool.settings.stubFile, tool.settings.stubSettingsFile, archive]
  match ← changingFiles fun files => Package.concatenate files executable parts with
  | .error cause => record request (.notPackaged executable false cause)
  | .ok skipped =>
      addArtifact executable
      skipped.forM fun cause => record request (.notPackaged cause.path false cause)

def package : ExportM Unit := do
  let output := request.options.output
  match ← changingFiles fun files => files.createDirectories output with
  | .error cause => record request (.notPackaged output true (.io output cause))
  | .ok () => pure ()
  if request.options.isCompressed then packageCompressed tool request
  else packageVerbatim tool request

end GameExport
