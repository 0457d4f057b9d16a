import GameExport.Export.Basic
import GameExport.Project.Units

/-! # Compiling the units of a project

An export submits one job at a time and waits until no job is pending. Whether a job has
succeeded is told by the file that it should have made. Each scene comes after what it needs:
the source files, and the sheets that are compiled for it alone. Source files that only sheets
need come last.
-/

namespace GameExport

open ExportM

variable (tool : ExportTool) (request : ExportRequest)

def interruption (world : World) : ExportError :=
  if world.hasFired request.caller then .cancelled
  else .timedOut (tool.settings.jobLimit.getD ⟨0⟩)

def awaited (workshop : Workshop) : Workshop.WaitEnd :=
  workshop.wait {
    compiler := tool.compiler
    token := request.token
    interval := tool.settings.yieldInterval
    host := request.react .idle }

def resume (ended : Workshop.WaitEnd) : ExportM Unit := do
  modify fun state =>
    { state with
      workshop := ended.workshop
      notices := state.notices ++ List.replicate ended.moments Notice.idle }
  unless ended.isIdle do throw (interruption tool request ended.workshop.world)

def waitForQueue : ExportM Unit := do
  resume tool request (awaited tool request (← get).workshop)

def submitAndWait (job : Job) : ExportM Unit := do
  let state ← get
  if state.workshop.world.hasFired request.token then
    throw (interruption tool request state.workshop.world)
  let ended := awaited tool request (state.workshop.submit job)
  modify fun state => { state with jobs := state.jobs ++ [⟨job, ended⟩] }
  resume tool request ended

def takeObject (files : UnitFiles) : ExportM Unit := do
  let state ← get
  if state.files.pathExists files.object then
    set { state with objects := state.objects ++ [files.object] }
  else throw (.compileFailed files.unit state.workshop.queue.log)

def compileCall (files : UnitFiles) (generated : Bool) : CompilerCall :=
  { CompilerCall.compile files.source files.object with
    optimize := request.options.optimize
    generated := generated }

def compileSource (name : String) : ExportM Unit := do
  let project := (← get).project
  match project.nativeSource? name with
  | none => pure ()
  | some source =>
      let files := project.sourceUnit source tool.settings.generatedDirectory
      say request "Compiling source file" (some name)
      submitAndWait tool request {
        call := compileCall request files false
        preparation := none
        unit := some files.unit
        label := s!"Compilation of {files.unit.display}"
        token := request.token }
      takeObject files

def writeCode (project : Project) (compiled : NameSet) (files : UnitFiles) (world : World) :
    World × Preparation :=
  match tool.write project files.unit compiled with
  | .error (.refused _) => (world, .failed)
  | .error .brokeDown => (world, .brokeDown)
  | .ok code =>
      match world.files.write files.source (Bytes.ofText code) with
      | .ok files => ({ world with files := files }, .done)
      | .error _ => (world, .failed)

def compileEvents (project : Project) (compiled : NameSet) (unit : UnitName) : ExportM Unit := do
  let files := UnitFiles.generated unit tool.settings.generatedDirectory
  submitAndWait tool request {
    call := compileCall request files true
    preparation := some (writeCode tool project compiled files)
    unit := some unit
    label := s!"Compilation of events of {unit.display}"
    token := request.token }
  takeObject files

def requirementsOf (analysis : InclusionAnalysis) (unit : UnitName) : ExportM Requirements :=
  match analysis.needs unit with
  | .ok requirements => pure requirements
  | .error error => throw (.ofInclusion error)

def compileNewSources (names : NameSet) : ExportM Unit :=
  names.toList.forM fun name => do
    unless name ∈ (← get).sources do
      modify fun state => { state with sources := state.sources.insert name }
      compileSource tool request name

/-- The sheets that are compiled on their own, each with the scene that it is compiled for. -/
def ownSheets (project : Project) (analysis : InclusionAnalysis) : List (String × String) :=
  project.externalEvents.filterMap fun sheet =>
    (analysis.soleUser? sheet.name).map fun scene => (sheet.name, scene)

/-- Compile a scene of the project and what it needs. `own` are the sheets that are compiled on
their own, with their scenes. -/
def compileScene (project : Project) (analysis : InclusionAnalysis)
    (own : List (String × String)) (total : Nat) (scene : String × Nat) : ExportM Unit := do
  let (name, place) := scene
  let compiled := NameSet.ofList (own.map (·.1))
  let requirements ← requirementsOf analysis (.scene name)
  say request s!"Compiling scene {name}." none
  compileNewSources tool request requirements.sourceFiles
  (requirements.externalEvents.toList.filter fun sheet => own.lookup sheet == some name).forM
    fun sheet => compileEvents tool request project compiled (.externalEvents sheet)
  compileEvents tool request project compiled (.scene name)
  say request s!"Compiling scene {name} succeeded" none
  progress request (.scenes place total)

def Scene.withoutProfiler (scene : Scene) : Scene := { scene with profilerEnabled := false }

def compileUnits : ExportM Unit := do
  modify fun state =>
    { state with
      project := { state.project with scenes := state.project.scenes.map Scene.withoutProfiler } }
  let generated := tool.settings.generatedDirectory
  match ← changingFiles fun files => files.createDirectories generated with
  | .error cause => record request (.workingDirectory generated cause)
  | .ok () => pure ()
  let project := (← get).project
  let analysis := project.inclusionAnalysis
  let own := ownSheets project analysis
  let names := project.scenes.map (·.name)
  (names.zipIdx 1).forM (compileScene tool request project analysis own names.length)
  project.externalEvents.forM fun sheet => do
    let requirements ← requirementsOf analysis (.externalEvents sheet.name)
    compileNewSources tool request requirements.sourceFiles

end GameExport
