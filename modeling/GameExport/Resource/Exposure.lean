import GameExport.Project.Events
import GameExport.Resource.Naming

/-! # Exposing the resources of a project

Every file that a project refers to is named, and the references are replaced by the names:
first the resources, then each scene's objects and events, the external events, and the
objects that every scene has.
-/

namespace GameExport

section

variable {m : Type → Type} [Monad m] (rename : String → m String)

def Resource.renameFile (resource : Resource) : m Resource :=
  if resource.usesFile then do
    pure { resource with file := ← rename resource.file }
  else pure resource

def GameObject.renameFiles (object : GameObject) : m GameObject := do
  pure { object with resources := ← object.resources.mapM rename }

def Scene.renameFiles (scene : Scene) : m Scene := do
  let objects ← scene.objects.mapM (GameObject.renameFiles rename)
  pure { scene with objects := objects, events := ← renameFilesIn rename scene.events }

def ExternalEvents.renameFiles (sheet : ExternalEvents) : m ExternalEvents := do
  pure { sheet with events := ← renameFilesIn rename sheet.events }

/-- A project with its files renamed. The name of each resource is announced before its file
is renamed. -/
def Project.renameFiles (announce : String → m Unit) (project : Project) : m Project := do
  let resources ← project.resources.mapM fun resource => do
    announce resource.name
    resource.renameFile rename
  let scenes ← project.scenes.mapM (Scene.renameFiles rename)
  let externalEvents ← project.externalEvents.mapM (ExternalEvents.renameFiles rename)
  let objects ← project.objects.mapM (GameObject.renameFiles rename)
  pure { project with
    resources := resources
    scenes := scenes
    externalEvents := externalEvents
    objects := objects }

end

def Project.exposeResources (project : Project) (files : FileTree) : Project × ResourceNames :=
  let rename := ResourceNames.expose files project.baseDirectory
  (project.renameFiles rename fun _ => pure ()).run .empty

end GameExport
