import GameExport.Export.Compiling

/-! # Linking a game's own code

The objects become one shared library, together with those libraries of the extensions in use
that are installed.
-/

namespace GameExport

open ExportM

variable (tool : ExportTool) (request : ExportRequest)

def libraryName (targets : TargetSet) : String :=
  if targets.contains .windows then "Code.dll" else "Code.so"

def runtimeParts (project : Project) : List (Extension × RuntimePart) :=
  project.extensions.filterMap fun name => do
    let extension ← tool.extensions.get? name
    pure (extension, ← extension.runtime)

def extensionLibraries (project : Project) (files : FileTree) : List String :=
  (runtimeParts tool project).flatMap fun (extension, part) =>
    (extension.name :: part.libraries).filter
      (libraryExists files tool.settings.extensionsDirectory)

def linkJob (project : Project) (objects : List Path) (files : FileTree) : Job where
  call := { CompilerCall.link (tool.workingDirectory.child (libraryName request.options.targets))
    with
    objects := objects
    libraries := extensionLibraries tool project files
    libraryDirectories := [tool.settings.extensionsDirectory] }
  preparation := none
  unit := none
  label := s!"Linking code for project {project.name}"
  token := request.token

def link : ExportM Unit := do
  say request "Linking project files..." none
  let state ← get
  let job := linkJob tool request state.project state.objects state.files
  submitAndWait tool request job
  unless (← get).files.pathExists job.call.output do
    throw (.linkFailed (← get).workshop.queue.log)
  say request s!"Linking project {state.project.name} succeeded" none
  progress request (.percent 90)

end GameExport
