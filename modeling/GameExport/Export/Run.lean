import GameExport.Export.Packaging

/-! # Exporting a game

An export goes through all stages. The first fatal error ends it. At its end the host is told
once whether it has succeeded, which is when it has gone through all stages without any error.
-/

namespace GameExport

open ExportM

variable (tool : ExportTool) (request : ExportRequest)

def validateTargets : ExportM Unit := do
  progress request (.percent 0)
  if request.options.targets.isEmpty then throw .noTarget

def workOf : Stage → ExportM Unit
  | .start => say request "Project compilation launching" none
  | .validateTargets => validateTargets request
  | .prepareResources => prepareResources tool request
  | .compileUnits => compileUnits tool request
  | .copyResources => copyResources tool request
  | .stripAndEncrypt => stripAndEncrypt tool request
  | .link => link tool request
  | .copyPlatformFiles => copyPlatformFiles tool request
  | .package => package tool request
  | .done => progress request (.percent 100)

def goThrough (stages : List Stage) : ExportM Unit :=
  stages.forM fun stage => do
    enter stage
    workOf tool request stage

def exportStages : ExportM Unit := do
  workOf tool request .start
  goThrough tool request Stage.all.tail

structure ExportReport where
  failure : Option ExportError
  stage : Stage
  warnings : List ExportError
  artifacts : List Path
  jobs : Nat
  deriving DecidableEq, Repr

namespace ExportReport

def isSuccess (report : ExportReport) : Bool := report.failure.isNone && report.warnings.isEmpty

def succeededWithWarnings (report : ExportReport) : Bool :=
  report.failure.isNone && !report.warnings.isEmpty

end ExportReport

structure ExportEnd where
  report : ExportReport
  workshop : Workshop
  notices : List (Notice Progress)

def reportOf (state : ExportState) (result : Except ExportError Unit) : ExportReport where
  failure := match result with
    | .ok () => none
    | .error error => some error
  stage := state.stages.getLast?.getD .start
  warnings := state.warnings
  artifacts := state.artifacts
  jobs := state.jobs.length

def conclude (report : ExportReport) : ExportM Unit := do
  match report.failure with
  | some error => tell request (.error error.message)
  | none => pure ()
  tell request (if report.isSuccess then .succeeded else .failed)

def exportGame (workshop : Workshop) : ExportEnd :=
  let (result, state) := (exportStages tool request).run.run (.initial workshop request.project)
  let report := reportOf state result
  let (_, state) := (conclude request report).run.run state
  ⟨report, state.workshop, state.notices⟩

end GameExport
