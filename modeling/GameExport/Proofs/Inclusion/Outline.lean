import GameExport.Inclusion.Analysis
import GameExport.Proofs.Inclusion.Relation

/-! # What the inclusions of a project depend on

Only the names of scenes and sheets, the links and dependencies in their events, and the source
files. Main statement: projects that agree on these have the same graph.
-/

namespace GameExport

structure SheetOutline where
  name : String
  links : List (String × Bool)
  dependencies : List String

structure ProjectOutline where
  scenes : List SheetOutline
  externalEvents : List SheetOutline
  sourceFiles : List SourceFile

def Scene.outline (scene : Scene) : SheetOutline :=
  ⟨scene.name, linksIn true scene.events, dependenciesIn scene.events⟩

def ExternalEvents.outline (sheet : ExternalEvents) : SheetOutline :=
  ⟨sheet.name, linksIn true sheet.events, dependenciesIn sheet.events⟩

namespace Project

def outline (project : Project) : ProjectOutline where
  scenes := project.scenes.map Scene.outline
  externalEvents := project.externalEvents.map ExternalEvents.outline
  sourceFiles := project.sourceFiles

theorem sheets_outline (project : Project) :
    (project.sheets.map fun (unit, events) => (unit, linksIn true events, dependenciesIn events)) =
      project.outline.scenes.map
          (fun sheet => (.scene sheet.name, sheet.links, sheet.dependencies)) ++
        project.outline.externalEvents.map
          fun sheet => (.externalEvents sheet.name, sheet.links, sheet.dependencies) := by
  rw [sheets, List.map_append]
  congr 1
  · rw [outline, List.map_map, List.map_map]
    rfl
  · rw [outline, List.map_map, List.map_map]
    rfl

variable {left right : Project}

theorem scenes_of_outline (same : left.outline = right.outline) :
    left.scenes.map Scene.name = right.scenes.map Scene.name := by
  have scenes := congrArg (fun outline => outline.scenes.map SheetOutline.name) same
  simp only [outline, List.map_map] at scenes
  exact scenes

theorem externalEvents_of_outline (same : left.outline = right.outline) :
    left.externalEvents.map ExternalEvents.name = right.externalEvents.map ExternalEvents.name := by
  have sheets := congrArg (fun outline => outline.externalEvents.map SheetOutline.name) same
  simp only [outline, List.map_map] at sheets
  exact sheets

theorem nativeSource?_of_outline (same : left.outline = right.outline) (name : String) :
    left.nativeSource? name = right.nativeSource? name := by
  have sources : left.sourceFiles = right.sourceFiles := congrArg ProjectOutline.sourceFiles same
  rw [nativeSource?, sources]
  rfl

theorem nativeSource?_of_declares {project : Project} {name : String}
    (declared : project.Declares (.sourceFile name)) :
    ∃ source, project.nativeSource? name = some source ∧ source.name = name := by
  rcases declares_sourceFile.mp declared with ⟨source, member, sameName, native⟩
  cases found : project.nativeSource? name with
  | none =>
      rw [nativeSource?, List.find?_eq_none] at found
      exact absurd (by simp [sameName, native]) (found source member)
  | some other =>
      have matching := List.find?_some found
      rw [Bool.and_eq_true, beq_iff_eq] at matching
      exact ⟨other, rfl, matching.1⟩

theorem isSome_scene? (project : Project) (name : String) :
    (project.scene? name).isSome = (project.scenes.map Scene.name).contains name := by
  rw [Bool.eq_iff_iff, scene?, List.find?_isSome, List.contains_iff_mem, List.mem_map]
  simp only [beq_iff_eq]

theorem isSome_sheet? (project : Project) (name : String) :
    (project.sheet? name).isSome =
      (project.externalEvents.map ExternalEvents.name).contains name := by
  rw [Bool.eq_iff_iff, sheet?, List.find?_isSome, List.contains_iff_mem, List.mem_map]
  simp only [beq_iff_eq]

theorem linked?_of_outline (same : left.outline = right.outline) (target : String) :
    left.linked? target = right.linked? target := by
  rw [linked?, isSome_sheet?, isSome_scene?, externalEvents_of_outline same,
    scenes_of_outline same, ← isSome_sheet?, ← isSome_scene?]
  rfl

theorem required?_of_outline (same : left.outline = right.outline) (name : String) :
    left.required? name = right.required? name := by
  rw [required?, nativeSource?_of_outline same]
  rfl

theorem sheets_of_outline (same : left.outline = right.outline) :
    (left.sheets.map fun (unit, events) => (unit, linksIn true events, dependenciesIn events)) =
      right.sheets.map fun (unit, events) =>
        (unit, linksIn true events, dependenciesIn events) := by
  rw [sheets_outline, sheets_outline, same]

theorem sheetNames_of_outline (same : left.outline = right.outline) :
    left.sheets.map Prod.fst = right.sheets.map Prod.fst := by
  have names := congrArg (List.map Prod.fst) (sheets_of_outline same)
  rwa [List.map_map, List.map_map] at names

/-- Projects of one outline have the same graph. -/
theorem inclusionGraph_of_outline (same : left.outline = right.outline) :
    left.inclusionGraph = right.inclusionGraph := by
  have sources : left.sourceFiles = right.sourceFiles := congrArg ProjectOutline.sourceFiles same
  have units : left.unitNames = right.unitNames := by
    rw [unitNames, unitNames, sources]
    exact congrArg (· ++ _) (sheetNames_of_outline same)
  have inclusions : left.inclusionGraph.inclusions = right.inclusionGraph.inclusions := by
    have all := congrArg (List.flatMap fun sheet : UnitName × List (String × Bool) × List String =>
      ((sheet.2.1.filterMap fun link =>
          (left.linked? link.1).map fun unit => Inclusion.mk unit link.2) ++
        sheet.2.2.filterMap fun name =>
          (left.required? name).map fun unit => Inclusion.mk unit true).map
        fun inclusion => (sheet.1, inclusion)) (sheets_of_outline same)
    rw [List.flatMap_map, List.flatMap_map] at all
    refine all.trans ?_
    simp only [linked?_of_outline same, required?_of_outline same]
    rfl
  have scenes : left.inclusionGraph.scenes = right.inclusionGraph.scenes :=
    scenes_of_outline same
  rw [inclusionGraph, inclusionGraph, InclusionGraph.mk.injEq]
  exact ⟨congrArg List.eraseDups units, inclusions, scenes⟩

theorem inclusionAnalysis_of_outline (same : left.outline = right.outline) :
    left.inclusionAnalysis = right.inclusionAnalysis := by
  rw [inclusionAnalysis, inclusionGraph_of_outline same]
  rfl

theorem hasEvents_of_outline (same : left.outline = right.outline) {unit : UnitName}
    {events : List Event} (declared : left.HasEvents unit events) :
    ∃ others, right.HasEvents unit others := by
  have listed := List.mem_map_of_mem (f := Prod.fst) (mem_sheets.mpr declared)
  rw [sheetNames_of_outline same] at listed
  rcases List.mem_map.mp listed with ⟨⟨_, others⟩, member, rfl⟩
  exact ⟨others, mem_sheets.mp member⟩

theorem leads_of_outline (same : left.outline = right.outline) : left.Leads = right.Leads := by
  funext unit other
  simp only [Leads, ← mem_inclusionsFrom, inclusionGraph_of_outline same]

end Project

end GameExport
