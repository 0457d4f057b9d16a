import GameExport.Inclusion.Graph
import GameExport.Text.NameSet

/-! # What a unit needs

The units that a unit includes, directly or through others, by kind and name. There is no
answer for a unit from which a cycle of inclusions can be reached. From the answers for all
scenes follows which sheets can be compiled on their own: those that one scene alone uses,
and only through links at the top.
-/

namespace GameExport

inductive InclusionError
  /-- A cycle of inclusions is in reach. -/
  | cyclic (unit : UnitName) (cycle : List String)
  | unknown (unit : UnitName)
  deriving DecidableEq, Repr

def InclusionError.message : InclusionError → String
  | .cyclic unit cycle =>
      s!"circular dependency detected for {unit.display} (cycle through " ++
        ", ".intercalate cycle ++ ")"
  | .unknown unit => s!"unknown unit: {unit.display}"

/-- The names of all units that a unit needs, itself left out. -/
structure Requirements where
  scenes : NameSet
  externalEvents : NameSet
  sourceFiles : NameSet
  /-- The sheets that are reached through a link inside an event. -/
  nestedExternalEvents : NameSet
  deriving DecidableEq, Repr

namespace Requirements

def none : Requirements := ⟨.empty, .empty, .empty, .empty⟩

def add (requirements : Requirements) : UnitName × Bool → Requirements
  | (.scene name, _) => { requirements with scenes := requirements.scenes.insert name }
  | (.externalEvents name, true) =>
      { requirements with externalEvents := requirements.externalEvents.insert name }
  | (.externalEvents name, false) =>
      { requirements with
        externalEvents := requirements.externalEvents.insert name
        nestedExternalEvents := requirements.nestedExternalEvents.insert name }
  | (.sourceFile name, _) =>
      { requirements with sourceFiles := requirements.sourceFiles.insert name }

def isEmpty (requirements : Requirements) : Bool :=
  requirements.scenes.isEmpty && requirements.externalEvents.isEmpty &&
    requirements.sourceFiles.isEmpty

def usesOnlyAtTop (requirements : Requirements) (sheet : String) : Bool :=
  decide (sheet ∈ requirements.externalEvents) &&
    decide (sheet ∉ requirements.nestedExternalEvents)

def toJson (requirements : Requirements) : Json :=
  .object [("scenes", Json.strings requirements.scenes.toList),
    ("external_events", Json.strings requirements.externalEvents.toList),
    ("source_files", Json.strings requirements.sourceFiles.toList),
    ("nested_external_events", Json.strings requirements.nestedExternalEvents.toList)]

end Requirements

namespace InclusionGraph

/-- The units reached from a unit, itself first, each with whether the way there went through
links at the top alone; a unit reached both ways is met twice. -/
def trail (graph : InclusionGraph) (unit : UnitName) : List (UnitName × Bool) :=
  explore
    (fun (unit, atTop) => (graph.inclusionsFrom unit).map fun inclusion =>
      (inclusion.unit, atTop && inclusion.atTop))
    (graph.units.flatMap fun unit => [(unit, true), (unit, false)])
    [(unit, true)]

/-- What a unit needs, given the cycles of the graph. The first unit of the trail that lies on a
cycle tells which one is reported. -/
def answer (graph : InclusionGraph) (cycles : List (UnitName × List UnitName)) (unit : UnitName) :
    Except InclusionError Requirements :=
  let trail := graph.trail unit
  match trail.findSome? fun step => cycles.lookup step.1 with
  | some units =>
      let texts := units.map UnitName.display
      .error (.cyclic unit (texts.mergeSort fun left right => decide (left ≤ right)))
  | none => .ok ((trail.filter fun step => step.1 != unit).foldl Requirements.add Requirements.none)

end InclusionGraph

structure InclusionAnalysis where
  scenes : List String
  answers : List (UnitName × Except InclusionError Requirements)

def InclusionGraph.analysis (graph : InclusionGraph) : InclusionAnalysis :=
  let cycles := graph.cycles
  ⟨graph.scenes, graph.units.map fun unit => (unit, graph.answer cycles unit)⟩

def Project.inclusionAnalysis (project : Project) : InclusionAnalysis :=
  project.inclusionGraph.analysis

namespace InclusionAnalysis

def needs (analysis : InclusionAnalysis) (unit : UnitName) : Except InclusionError Requirements :=
  (analysis.answers.lookup unit).getD (.error (.unknown unit))

def usesOnlyAtTop (analysis : InclusionAnalysis) (sheet scene : String) : Bool :=
  match analysis.needs (.scene scene) with
  | .ok requirements => requirements.usesOnlyAtTop sheet
  | .error _ => false

/-- The scene for which a sheet can be compiled on its own: the only one that uses it at the
top alone. -/
def soleUser? (analysis : InclusionAnalysis) (sheet : String) : Option String :=
  match analysis.scenes.filter (analysis.usesOnlyAtTop sheet) with
  | [scene] => some scene
  | _ => none

end InclusionAnalysis

end GameExport
