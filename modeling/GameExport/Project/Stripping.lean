import GameExport.Project.Basic

/-! # What is left of a project in a game

Events are compiled, so a shipped project has neither events nor anything that only the
editor uses.
-/

namespace GameExport

def Scene.strip (scene : Scene) : Scene :=
  { scene with events := [], editor := none, profilerEnabled := false }

def Project.strip (project : Project) : Project :=
  { project with
    editor := none
    externalEvents := []
    scenes := project.scenes.map Scene.strip }

end GameExport
