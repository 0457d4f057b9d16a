import GameExport.Inclusion.Exploration
import GameExport.Project.Events
import GameExport.Unit

/-! # Which unit includes which

Links include sheets and scenes, code includes source files. A link names a sheet of external
events first and a scene otherwise; what names nothing is ignored. Units of one kind and name
are one unit here.
-/

namespace GameExport

namespace Project

def linked? (project : Project) (target : String) : Option UnitName :=
  if (project.sheet? target).isSome then some (.externalEvents target)
  else if (project.scene? target).isSome then some (.scene target)
  else none

def required? (project : Project) (name : String) : Option UnitName :=
  if (project.nativeSource? name).isSome then some (.sourceFile name) else none

end Project

structure Inclusion where
  unit : UnitName
  /-- The link stands directly in the including sheet, not inside an event. -/
  atTop : Bool
  deriving DecidableEq, Repr

def Project.inclusionsOf (project : Project) (events : List Event) : List Inclusion :=
  ((linksIn true events).filterMap fun (target, atTop) =>
    (project.linked? target).map fun unit => ⟨unit, atTop⟩) ++
  (dependenciesIn events).filterMap fun name =>
    (project.required? name).map fun unit => ⟨unit, true⟩

structure InclusionGraph where
  units : List UnitName
  inclusions : List (UnitName × Inclusion)
  /-- The names of the scenes as declared. -/
  scenes : List String
  deriving Repr

/-- The sheets of a project with their events: scenes first, then external events. -/
def Project.sheets (project : Project) : List (UnitName × List Event) :=
  project.scenes.map (fun scene => (.scene scene.name, scene.events)) ++
  project.externalEvents.map fun sheet => (.externalEvents sheet.name, sheet.events)

def Project.unitNames (project : Project) : List UnitName :=
  project.sheets.map (·.1) ++
  (project.sourceFiles.filter SourceFile.isNative).map fun source => .sourceFile source.name

def Project.inclusionGraph (project : Project) : InclusionGraph where
  units := project.unitNames.eraseDups
  inclusions := project.sheets.flatMap fun (unit, events) =>
    (project.inclusionsOf events).map fun inclusion => (unit, inclusion)
  scenes := project.scenes.map (·.name)

namespace InclusionGraph

def inclusionsFrom (graph : InclusionGraph) (unit : UnitName) : List Inclusion :=
  graph.inclusions.filterMap fun (including, inclusion) =>
    if including = unit then some inclusion else none

def successors (graph : InclusionGraph) (unit : UnitName) : List UnitName :=
  (graph.inclusionsFrom unit).map (·.unit)

/-- The units that a unit leads to by one inclusion or more. -/
def reached (graph : InclusionGraph) (unit : UnitName) : List UnitName :=
  explore graph.successors graph.units (graph.successors unit)

/-- The cycles of inclusions: every unit that lies on one, with all units that lead to it and that
it leads to, itself among them. -/
def cycles (graph : InclusionGraph) : List (UnitName × List UnitName) :=
  let reach := graph.units.map fun unit => (unit, graph.reached unit)
  let leads (unit other : UnitName) := ((reach.lookup unit).getD []).contains other
  (graph.units.filter fun unit => leads unit unit).map fun unit =>
    (unit, graph.units.filter fun other => leads unit other && leads other unit)

end InclusionGraph

end GameExport
