import GameExport.Proofs.Export.Preparing

/-! # Exports among others

While an export waits for the queue, everything else that goes on decides how the wait ends. Here
an export is given how each of its waits ends, whatever that is. Main statement: the export that
lets the worker go on by itself is one of these.
-/

namespace GameExport

open ExportM

/-! ## The parts of compiling and linking -/

section Compiling

variable (tool : ExportTool) (request : ExportRequest)

def sourceJob (files : UnitFiles) : Job where
  call := compileCall request files false
  preparation := none
  unit := some files.unit
  label := s!"Compilation of {files.unit.display}"
  token := request.token

def eventsJob (project : Project) (compiled : NameSet) (unit : UnitName) : Job where
  call := compileCall request (UnitFiles.generated unit tool.settings.generatedDirectory) true
  preparation := some (writeCode tool project compiled
    (UnitFiles.generated unit tool.settings.generatedDirectory))
  unit := some unit
  label := s!"Compilation of events of {unit.display}"
  token := request.token

def makeGenerated : ExportM Unit := do
  let generated := tool.settings.generatedDirectory
  match ← changingFiles fun files => files.createDirectories generated with
  | .error cause => record request (.workingDirectory generated cause)
  | .ok () => pure ()

def openGenerated : ExportM Unit := do
  modify fun state =>
    { state with
      project := { state.project with scenes := state.project.scenes.map Scene.withoutProfiler } }
  makeGenerated tool request

def checkLibrary (job : Job) : ExportM Unit := do
  unless (← get).files.pathExists job.call.output do
    throw (.linkFailed (← get).workshop.queue.log)

def compileLoops (project : Project) (analysis : InclusionAnalysis) : ExportM Unit := do
  let own := ownSheets project analysis
  let names := project.scenes.map (·.name)
  (names.zipIdx 1).forM (compileScene tool request project analysis own names.length)
  project.externalEvents.forM fun sheet => do
    let requirements ← requirementsOf analysis (.externalEvents sheet.name)
    compileNewSources tool request requirements.sourceFiles

theorem compileUnits_eq : compileUnits tool request = (do
    openGenerated tool request
    let project := (← get).project
    compileLoops tool request project project.inclusionAnalysis) := by
  unfold compileUnits openGenerated makeGenerated
  rw [bind_assoc]
  congr 1
  funext _
  dsimp only
  rw [bind_assoc]
  congr 1
  funext created
  cases created with
  | error cause => rfl
  | ok =>
      dsimp only
      rw [pure_bind]
      rfl

end Compiling

/-! ## Exports whose waits end somehow

Each part of an export is as it is defined for exports by themselves, but for how the waits in it
end, which is given.
-/

/-- How a wait for the queue ends that begins in a workshop. -/
structure Awaiting where
  ends : Workshop → Workshop.WaitEnd

namespace Awaiting

variable (await : Awaiting) (tool : ExportTool) (request : ExportRequest)

def waitForQueue : ExportM Unit := do
  resume tool request (await.ends (← get).workshop)

def submitAndWait (job : Job) : ExportM Unit := do
  let state ← get
  if state.workshop.world.hasFired request.token then
    throw (interruption tool request state.workshop.world)
  let ended := await.ends (state.workshop.submit job)
  modify fun state => { state with jobs := state.jobs ++ [⟨job, ended⟩] }
  resume tool request ended

def compileSource (name : String) : ExportM Unit := do
  let project := (← get).project
  match project.nativeSource? name with
  | none => pure ()
  | some source =>
      let files := project.sourceUnit source tool.settings.generatedDirectory
      say request "Compiling source file" (some name)
      await.submitAndWait tool request (sourceJob request files)
      takeObject files

def compileEvents (project : Project) (compiled : NameSet) (unit : UnitName) : ExportM Unit := do
  await.submitAndWait tool request (eventsJob tool request project compiled unit)
  takeObject (UnitFiles.generated unit tool.settings.generatedDirectory)

def compileNewSources (names : NameSet) : ExportM Unit :=
  names.toList.forM fun name => do
    unless name ∈ (← get).sources do
      modify fun state => { state with sources := state.sources.insert name }
      await.compileSource tool request name

def compileScene (project : Project) (analysis : InclusionAnalysis)
    (own : List (String × String)) (total : Nat) (scene : String × Nat) : ExportM Unit := do
  let (name, place) := scene
  let compiled := NameSet.ofList (own.map (·.1))
  let requirements ← requirementsOf analysis (.scene name)
  say request s!"Compiling scene {name}." none
  await.compileNewSources tool request requirements.sourceFiles
  (requirements.externalEvents.toList.filter fun sheet => own.lookup sheet == some name).forM
    fun sheet => await.compileEvents tool request project compiled (.externalEvents sheet)
  await.compileEvents tool request project compiled (.scene name)
  say request s!"Compiling scene {name} succeeded" none
  progress request (.scenes place total)

def compileLoops (project : Project) (analysis : InclusionAnalysis) : ExportM Unit := do
  let own := ownSheets project analysis
  let names := project.scenes.map (·.name)
  (names.zipIdx 1).forM (await.compileScene tool request project analysis own names.length)
  project.externalEvents.forM fun sheet => do
    let requirements ← requirementsOf analysis (.externalEvents sheet.name)
    await.compileNewSources tool request requirements.sourceFiles

def compileUnits : ExportM Unit := do
  openGenerated tool request
  let project := (← get).project
  await.compileLoops tool request project project.inclusionAnalysis

def renameResources : ExportM Unit := do
  let project := (← get).project
  let renamed ← project.renameFiles (exposeFile project.baseDirectory) fun name =>
    say request preparingMessage (some name)
  modify fun state => { state with project := renamed }

def prepareResources : ExportM Unit := do
  if (← get).workshop.queue.isBusy then
    say request "Compilation waiting for other task to finish..." none
    await.waitForQueue tool request
  emptyWorkingDirectory tool request
  say request preparingMessage none
  renameResources request

def link : ExportM Unit := do
  say request "Linking project files..." none
  let state ← get
  let job := linkJob tool request state.project state.objects state.files
  await.submitAndWait tool request job
  unless (← get).files.pathExists job.call.output do
    throw (.linkFailed (← get).workshop.queue.log)
  say request s!"Linking project {state.project.name} succeeded" none
  progress request (.percent 90)

theorem link_eq : await.link tool request = (do
    say request "Linking project files..." none
    let state ← get
    let job := linkJob tool request state.project state.objects state.files
    await.submitAndWait tool request job >>= fun _ => checkLibrary job
    say request s!"Linking project {state.project.name} succeeded" none
    progress request (.percent 90)) := by
  have checks (job : Job) (next : ExportM Unit) : (do
      unless (← get).files.pathExists job.call.output do
        throw (.linkFailed (← get).workshop.queue.log)
      next) = checkLibrary job >>= fun _ => next := by
    unfold checkLibrary
    rw [bind_assoc]
    congr 1
    funext state
    split
    · rw [pure_bind]
    · rw [bind_assoc]
  unfold Awaiting.link
  simp only [checks, bind_assoc]

def workOf : Stage → ExportM Unit
  | .prepareResources => await.prepareResources tool request
  | .compileUnits => await.compileUnits tool request
  | .link => await.link tool request
  | stage => GameExport.workOf tool request stage

def goThrough (stages : List Stage) : ExportM Unit :=
  stages.forM fun stage => do
    enter stage
    await.workOf tool request stage

def exportStages : ExportM Unit := do
  await.workOf tool request .start
  await.goThrough tool request Stage.all.tail

def exportGame (workshop : Workshop) : ExportEnd :=
  let (result, state) :=
    (await.exportStages tool request).run.run (.initial workshop request.project)
  let report := reportOf state result
  let (_, state) := (conclude request report).run.run state
  ⟨report, state.workshop, state.notices⟩

theorem report_exportGame (workshop : Workshop) :
    (await.exportGame tool request workshop).report =
      reportOf ((await.exportStages tool request).run.run (.initial workshop request.project)).2
        ((await.exportStages tool request).run.run (.initial workshop request.project)).1 :=
  rfl

end Awaiting

theorem compileUnits_awaited (tool : ExportTool) (request : ExportRequest) :
    Awaiting.compileUnits ⟨awaited tool request⟩ tool request = compileUnits tool request :=
  (compileUnits_eq tool request).symm

/-- An export lets the worker go on by itself whenever it waits. -/
theorem workOf_awaited (tool : ExportTool) (request : ExportRequest) (stage : Stage) :
    Awaiting.workOf ⟨awaited tool request⟩ tool request stage = workOf tool request stage := by
  cases stage with
  | compileUnits => exact compileUnits_awaited tool request
  | _ => rfl

theorem exportStages_awaited (tool : ExportTool) (request : ExportRequest) :
    Awaiting.exportStages ⟨awaited tool request⟩ tool request = exportStages tool request := by
  unfold Awaiting.exportStages Awaiting.goThrough exportStages goThrough
  simp only [workOf_awaited]

theorem exportGame_awaited (tool : ExportTool) (request : ExportRequest) (workshop : Workshop) :
    Awaiting.exportGame ⟨awaited tool request⟩ tool request workshop =
      exportGame tool request workshop := by
  have same := exportStages_awaited tool request
  unfold Awaiting.exportGame
  generalize Awaiting.exportStages ⟨awaited tool request⟩ tool request = stages at same ⊢
  subst same
  rfl

end GameExport
