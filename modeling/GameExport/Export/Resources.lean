import GameExport.Export.Compiling
import GameExport.Package.Files
import GameExport.Project.Stripping

/-! # The resources and the descriptor of an exported game

The working directory is emptied, every resource file gets a name and is copied there, the
project is written next to them, encrypted, and all files are packed into the container, which
is then the only file.
-/

namespace GameExport

open ExportM

variable (tool : ExportTool) (request : ExportRequest)

def preparingMessage : String := "Preparing resources..."

def copyingMessage : String := "Copying resources..."

def removeEntry (path : Path) (files : FileTree) : Except FileError FileTree :=
  if files.isDirectory path then files.removeAll path else files.removeFile path

def emptyWorkingDirectory : ExportM Unit := do
  let directory := tool.workingDirectory
  match ← changingFiles fun files => files.createDirectories directory with
  | .error cause => record request (.workingDirectory directory cause)
  | .ok () =>
      let files := (← get).files
      match files.find true directory with
      | .error cause => record request (.workingDirectory directory cause)
      | .ok (location, _) =>
          (files.sortedChildren location).forM fun (name, _) => do
            let path := directory.child name
            attempt request (removeEntry path) (.workingDirectory path)

/-- Replace a path of the project by the name of the file that it leads to. -/
def exposeFile (base : Path) (path : String) : ExportM String := do
  let state ← get
  let (name, resources) := (ResourceNames.expose state.files base path).run state.resources
  set { state with resources := resources }
  pure name

def prepareResources : ExportM Unit := do
  if (← get).workshop.queue.isBusy then
    say request "Compilation waiting for other task to finish..." none
    waitForQueue tool request
  emptyWorkingDirectory tool request
  say request preparingMessage none
  let project := (← get).project
  let renamed ← project.renameFiles (exposeFile project.baseDirectory) fun name =>
    say request preparingMessage (some name)
  modify fun state => { state with project := renamed }

def copyResource (total : Nat) (entry : (Path × String) × Nat) : ExportM Unit := do
  let ((source, name), place) := entry
  say request copyingMessage (some source.text)
  attempt request (fun files => Package.copyFile files source (tool.workingDirectory.child name))
    (.resourceNotCopied source)
  progress request (.resources place total)

def copyResources : ExportM Unit := do
  say request copyingMessage none
  let entries := (← get).resources.entries
  (entries.zipIdx 1).forM (copyResource tool request entries.length)

def plainDescriptor : String := "GDProjectSrcFile.gdg"

def encryptedDescriptor : String := "src"

def containerName : String := "gam.egd"

def removeWorkingFile (name : String) : ExportM Unit :=
  let path := tool.workingDirectory.child name
  attempt request (fun files => files.removeFile path) (.workingDirectory path)

def packWorkingFiles : ExportM Unit := do
  let directory := tool.workingDirectory
  let container := directory.child containerName
  match Package.listFiles (← get).files directory with
  | .error cause => throw (.notPackaged container true cause)
  | .ok names =>
      match ← changingFiles fun files => tool.pack files names directory container with
      | .error cause => throw (.notPackaged container true cause)
      | .ok () => names.forM (removeWorkingFile tool request)

def writeDescriptor : ExportM Unit := do
  let plain := tool.workingDirectory.child plainDescriptor
  say request copyingMessage (some "Step 1 out of 3")
  let stripped := (← get).project.strip
  attempt request (fun files => stripped.save files plain) .descriptorNotWritten
  progress request (.percent 80)
  say request copyingMessage (some "Step 2 out of 3")
  let encrypted := tool.workingDirectory.child encryptedDescriptor
  attempt request (fun files => Cipher.encryptFile files plain encrypted) .descriptorNotEncrypted
  removeWorkingFile tool request plainDescriptor
  progress request (.percent 85)

def stripAndEncrypt : ExportM Unit := do
  writeDescriptor tool request
  say request copyingMessage (some "Step 3 out of 3")
  packWorkingFiles tool request

end GameExport
