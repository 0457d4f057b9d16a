import GameExport.Project.Basic
import GameExport.Unit

/-! # The units of a project

Every unit that a project declares, with its files: scenes, sheets of external events, then
the source files that are native.
-/

namespace GameExport

namespace Project

/-- The files of a source file of the project. -/
def sourceUnit (project : Project) (source : SourceFile) (generated : Path) : UnitFiles :=
  UnitFiles.native source.name ⟨source.file⟩ project.baseDirectory generated

def units (project : Project) (generated : Path) : List UnitFiles :=
  project.scenes.map (fun scene => UnitFiles.generated (.scene scene.name) generated) ++
  project.externalEvents.map
    (fun sheet => UnitFiles.generated (.externalEvents sheet.name) generated) ++
  (project.sourceFiles.filter SourceFile.isNative).map
    (fun source => project.sourceUnit source generated)

end Project

end GameExport
