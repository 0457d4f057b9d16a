import GameExport.Proofs.Export.Running
import GameExport.Proofs.Inclusion.Outline
import GameExport.Proofs.Queue.Waiting

/-! # What preparing the resources leaves

Every file of the project gets another name, but links, dependencies and source files stay. Main
statements: renaming keeps the outline of a project, and once the resources are prepared the queue
is empty and nothing has been compiled.
-/

namespace GameExport

open ExportM

/-! ## Renaming keeps the outline -/

section Renaming

variable (rename : String → ExportM String)

mutual
theorem gives_renameFiles_event : ∀ event : Event,
    Gives (event.renameFiles rename) fun renamed =>
      (∀ top, renamed.links top = event.links top) ∧ renamed.dependencies = event.dependencies
  | .standard instructions subEvents => by
      rw [Event.renameFiles]
      apply Gives.bind (.anything _)
      intro _ _
      apply Gives.bind (gives_renameFilesIn subEvents)
      intro renamed same
      apply Gives.pure
      exact ⟨fun _ => same.1 false, same.2⟩
  | .link target => by
      rw [Event.renameFiles]
      exact .pure ⟨fun _ => rfl, rfl⟩
  | .code text dependencies subEvents => by
      rw [Event.renameFiles]
      apply Gives.bind (gives_renameFilesIn subEvents)
      intro renamed same
      apply Gives.pure
      exact ⟨fun _ => same.1 false, congrArg (dependencies ++ ·) same.2⟩
  | .comment text => by
      rw [Event.renameFiles]
      exact .pure ⟨fun _ => rfl, rfl⟩

theorem gives_renameFilesIn : ∀ events : List Event,
    Gives (renameFilesIn rename events) fun renamed =>
      (∀ top, linksIn top renamed = linksIn top events) ∧
        dependenciesIn renamed = dependenciesIn events
  | [] => by
      rw [renameFilesIn]
      exact .pure ⟨fun _ => rfl, rfl⟩
  | event :: rest => by
      rw [renameFilesIn]
      apply Gives.bind (gives_renameFiles_event event)
      intro first sameFirst
      apply Gives.bind (gives_renameFilesIn rest)
      intro others sameRest
      apply Gives.pure
      constructor
      · intro top
        rw [linksIn, linksIn, sameFirst.1, sameRest.1]
      · rw [dependenciesIn, dependenciesIn, sameFirst.2, sameRest.2]
end

theorem gives_renameFiles_scene (scene : Scene) :
    Gives (scene.renameFiles rename) fun renamed => renamed.outline = scene.outline := by
  apply Gives.bind (.anything _)
  intro _ _
  apply Gives.bind (gives_renameFilesIn rename scene.events)
  intro events same
  apply Gives.pure
  simp only [Scene.outline, same]

theorem gives_renameFiles_sheet (sheet : ExternalEvents) :
    Gives (sheet.renameFiles rename) fun renamed => renamed.outline = sheet.outline := by
  apply Gives.bind (gives_renameFilesIn rename sheet.events)
  intro events same
  apply Gives.pure
  simp only [ExternalEvents.outline, same]

theorem gives_renameFiles (announce : String → ExportM Unit) (project : Project) :
    Gives (project.renameFiles rename announce) fun renamed =>
      renamed.outline = project.outline := by
  apply Gives.bind (.anything _)
  intro _ _
  apply Gives.bind (.mapM project.scenes (gives_renameFiles_scene rename))
  intro scenes sameScenes
  apply Gives.bind (.mapM project.externalEvents (gives_renameFiles_sheet rename))
  intro sheets sameSheets
  apply Gives.bind (.anything _)
  intro _ _
  apply Gives.pure
  simp only [Project.outline, sameScenes, sameSheets]

end Renaming

theorem outline_withoutProfiler (project : Project) :
    { project with scenes := project.scenes.map Scene.withoutProfiler }.outline =
      project.outline := by
  simp only [Project.outline, List.map_map]
  rfl

/-! ## What compiling works with -/

/-- What of a state is read and changed while units are compiled, apart from the files and what
the host is told. -/
structure Compilation where
  queue : Queue
  project : Project
  sources : NameSet
  objects : List Path
  jobs : List SubmittedJob

def ExportState.compilation (state : ExportState) : Compilation where
  queue := state.workshop.queue
  project := state.project
  sources := state.sources
  objects := state.objects
  jobs := state.jobs

theorem keepsCompilation_of_core {α : Type} {part : ExportM α}
    (keeps : Keeps ExportState.core part) : Keeps ExportState.compilation part :=
  keeps.of_observed fun core =>
    Compilation.mk core.queue core.project core.sources core.objects core.jobs

variable (tool : ExportTool) (request : ExportRequest)

theorem keepsCompilation_exposeFile (base : Path) (path : String) :
    Keeps ExportState.compilation (exposeFile base path) :=
  fun _ => rfl

section Renaming

variable {rename : String → ExportM String} {holds : ExportState → Prop}
  {ended : ExportError → ExportState → Prop}

theorem carries_renameFile_argument (step : ∀ path, Carries holds ended (rename path))
    (argument : Argument) : Carries holds ended (argument.renameFile rename) := by
  cases argument with
  | value text => exact Meets.pure fun _ => id
  | file path => exact Meets.bind (step path) fun _ => .pure fun _ => id

theorem carries_renameFiles_instruction (step : ∀ path, Carries holds ended (rename path))
    (instruction : Instruction) : Carries holds ended (instruction.renameFiles rename) :=
  Meets.bind (Carries.mapM _ (carries_renameFile_argument step)) fun _ => .pure fun _ => id

mutual
theorem carries_renameFiles_event (step : ∀ path, Carries holds ended (rename path)) :
    ∀ event : Event, Carries holds ended (event.renameFiles rename)
  | .standard instructions subEvents => by
      rw [Event.renameFiles]
      apply Meets.bind (Carries.mapM _ (carries_renameFiles_instruction step))
      intro _
      exact Meets.bind (carries_renameFilesIn step subEvents) fun _ => .pure fun _ => id
  | .link target => by
      rw [Event.renameFiles]
      exact Meets.pure fun _ => id
  | .code text dependencies subEvents => by
      rw [Event.renameFiles]
      exact Meets.bind (carries_renameFilesIn step subEvents) fun _ => .pure fun _ => id
  | .comment text => by
      rw [Event.renameFiles]
      exact Meets.pure fun _ => id

theorem carries_renameFilesIn (step : ∀ path, Carries holds ended (rename path)) :
    ∀ events : List Event, Carries holds ended (renameFilesIn rename events)
  | [] => by
      rw [renameFilesIn]
      exact Meets.pure fun _ => id
  | event :: rest => by
      rw [renameFilesIn]
      apply Meets.bind (carries_renameFiles_event step event)
      intro _
      exact Meets.bind (carries_renameFilesIn step rest) fun _ => .pure fun _ => id
end

theorem carries_renameFile_resource (step : ∀ path, Carries holds ended (rename path))
    (resource : Resource) : Carries holds ended (resource.renameFile rename) := by
  unfold Resource.renameFile
  split
  · exact Meets.bind (step _) fun _ => .pure fun _ => id
  · exact Meets.pure fun _ => id

theorem carries_renameFiles_object (step : ∀ path, Carries holds ended (rename path))
    (object : GameObject) : Carries holds ended (object.renameFiles rename) :=
  Meets.bind (Carries.mapM _ step) fun _ => .pure fun _ => id

theorem carries_renameFiles {announce : String → ExportM Unit}
    (step : ∀ path, Carries holds ended (rename path))
    (stepToo : ∀ name, Carries holds ended (announce name)) (project : Project) :
    Carries holds ended (project.renameFiles rename announce) := by
  have objects := carries_renameFiles_object step
  have events := carries_renameFilesIn step
  have resource (resource : Resource) : Carries holds ended (do
      announce resource.name
      resource.renameFile rename) :=
    Meets.bind (stepToo _) fun _ => carries_renameFile_resource step resource
  have scene (scene : Scene) : Carries holds ended (scene.renameFiles rename) :=
    Meets.bind (Carries.mapM _ objects) fun _ => Meets.bind (events _) fun _ => .pure fun _ => id
  have sheet (sheet : ExternalEvents) : Carries holds ended (sheet.renameFiles rename) :=
    Meets.bind (events _) fun _ => .pure fun _ => id
  apply Meets.bind (Carries.mapM _ resource)
  intro _
  apply Meets.bind (Carries.mapM _ scene)
  intro _
  apply Meets.bind (Carries.mapM _ sheet)
  intro _
  exact Meets.bind (Carries.mapM _ objects) fun _ => .pure fun _ => id

end Renaming

/-! ## Preparing the resources -/

structure Compilation.IsFresh (compilation : Compilation) : Prop where
  outline : compilation.project.outline = request.project.outline
  sources : compilation.sources = .empty
  objects : compilation.objects = []
  jobs : compilation.jobs = []

def ExportState.resumed (state : ExportState) (ended : Workshop.WaitEnd) : ExportState :=
  { state with
    workshop := ended.workshop
    notices := state.notices ++ List.replicate ended.moments Notice.idle }

def ExportState.submitted (state : ExportState) (record : SubmittedJob) : ExportState :=
  { state with jobs := state.jobs ++ [record] }

theorem meets_resume {ended : Workshop.WaitEnd} {before : ExportState → Prop}
    {after : Unit → ExportState → Prop} {failed : ExportError → ExportState → Prop}
    (success : ended.isIdle = true → ∀ state, before state → after () (state.resumed ended))
    (failure : ended.isIdle = false → ∀ state, before state →
      failed (interruption tool request ended.workshop.world) (state.resumed ended)) :
    Meets before (resume tool request ended) after failed := by
  intro state holds
  cases idle : ended.isIdle with
  | false =>
      have run : (resume tool request ended).run.run state =
          (.error (interruption tool request ended.workshop.world), state.resumed ended) := by
        rw [resume, run_bind]
        simp only [idle]
        rfl
      rw [run]
      exact failure idle state holds
  | true =>
      have run : (resume tool request ended).run.run state = (.ok (), state.resumed ended) := by
        rw [resume, run_bind]
        simp only [idle]
        rfl
      rw [run]
      exact success idle state holds

theorem Compilation.IsFresh.withQueue {compilation : Compilation} (queue : Queue)
    (fresh : compilation.IsFresh request) : { compilation with queue := queue }.IsFresh request :=
  ⟨fresh.outline, fresh.sources, fresh.objects, fresh.jobs⟩

def Compilation.IsPrepared (compilation : Compilation) : Prop :=
  compilation.IsFresh request ∧ compilation.queue.IsEmpty

theorem meets_renaming {ended : ExportError → ExportState → Prop}
    (fails : ∀ error state, state.compilation.IsPrepared request → ended error state) :
    Meets (fun state => state.compilation.IsPrepared request)
      (do
        let project := (← get).project
        let renamed ← project.renameFiles (exposeFile project.baseDirectory) fun name =>
          say request preparingMessage (some name)
        modify fun state => { state with project := renamed })
      (fun _ state => state.compilation.IsPrepared request) ended := by
  apply meets_get_bind
  intro start prepared
  have maintains : Maintains (fun state => state.compilation.IsPrepared request)
      (start.project.renameFiles (exposeFile start.project.baseDirectory) fun name =>
        say request preparingMessage (some name)) :=
    carries_renameFiles
      (fun path => (keepsCompilation_exposeFile _ path).maintains (Compilation.IsPrepared request))
      (fun name => (keepsCompilation_of_core (keeps_say request _ _)).maintains
        (Compilation.IsPrepared request)) _
  have kept := maintains.weaken (fun _ => id) (fun _ _ => id) fails
  have renamed := kept.giving (gives_renameFiles _ _ start.project)
  apply Meets.bind (renamed.start prepared)
  intro project
  apply Meets.modify
  intro state holds
  rcases holds with ⟨⟨fresh, empty⟩, outline⟩
  have same : project.outline = request.project.outline := outline.trans prepared.1.outline
  exact ⟨⟨same, fresh.sources, fresh.objects, fresh.jobs⟩, empty⟩

/-- Once the resources are prepared, nothing has been compiled yet and the queue is empty. -/
theorem meets_prepareResources :
    Meets (fun state => state.compilation.IsFresh request ∧ state.compilation.queue.Balanced)
      (prepareResources tool request)
      (fun _ state => state.compilation.IsPrepared request)
      fun _ state => state.jobs = [] := by
  have noJobs (error : ExportError) (state : ExportState)
      (prepared : state.compilation.IsPrepared request) : state.jobs = [] := prepared.1.jobs
  have keeps {part : ExportM Unit} (keeps : Keeps ExportState.core part) :=
    (keepsCompilation_of_core keeps).meets (fun compilation => compilation.IsPrepared request)
      noJobs
  have rest : Meets (fun state => state.compilation.IsPrepared request)
      (do
        emptyWorkingDirectory tool request
        say request preparingMessage none
        let project := (← get).project
        let renamed ← project.renameFiles (exposeFile project.baseDirectory) fun name =>
          say request preparingMessage (some name)
        modify fun state => { state with project := renamed })
      (fun _ state => state.compilation.IsPrepared request) fun _ state => state.jobs = [] := by
    apply Meets.bind (keeps (keeps_emptyWorkingDirectory tool request))
    intro _
    apply Meets.bind (keeps (keeps_say request _ _))
    intro _
    exact meets_renaming request noJobs
  have waits : Meets
      (fun state => state.compilation.IsFresh request ∧ state.compilation.queue.Balanced)
      (waitForQueue tool request) (fun _ state => state.compilation.IsPrepared request)
      fun _ state => state.jobs = [] := by
    apply meets_get_bind
    intro start holds
    rcases holds with ⟨fresh, balanced⟩
    apply meets_resume tool request
    · intro idle state same
      subst same
      exact ⟨fresh.withQueue request _, Workshop.isEmpty_of_wait balanced idle⟩
    · intro _ state same
      subst same
      exact fresh.jobs
  unfold prepareResources
  apply meets_get_bind
  intro start holds
  rcases holds with ⟨fresh, balanced⟩
  dsimp only
  -- If the queue is not busy, nothing is waited for, since then no job is pending anyway.
  split
  · have said := (keepsCompilation_of_core (keeps_say request
      "Compilation waiting for other task to finish..." none)).meets
        (fun compilation => compilation.IsFresh request ∧ compilation.queue.Balanced)
        fun error state holds => (holds.1.jobs : state.jobs = [])
    apply Meets.bind (said.start ⟨fresh, balanced⟩)
    intro _
    apply Meets.bind waits
    intro _
    exact rest
  · rename_i free
    have done : start.workshop.queue.pending = 0 := by simpa [Queue.isBusy] using free
    exact rest.start ⟨fresh, balanced.isEmpty done⟩

/-! ## What preparing maintains -/

structure Shipping where
  extensions : List String
  usesExternalSources : Bool
  windowsExecutable : String
  linuxExecutable : String
  macExecutable : String

def Project.shipping (project : Project) : Shipping where
  extensions := project.extensions
  usesExternalSources := project.usesExternalSources
  windowsExecutable := project.windowsExecutable
  linuxExecutable := project.linuxExecutable
  macExecutable := project.macExecutable

theorem gives_renameFiles_shipping (rename : String → ExportM String)
    (announce : String → ExportM Unit) (project : Project) :
    Gives (project.renameFiles rename announce) fun renamed =>
      renamed.shipping = project.shipping :=
  .bind (.anything _) fun _ _ => .bind (.anything _) fun _ _ => .bind (.anything _) fun _ _ =>
    .bind (.anything _) fun _ _ => .pure rfl

variable {tool request} in
theorem maintains_prepareResources {property : ExportState → Prop}
    {told : Project → Project → Prop}
    (tells : ∀ rename announce project, Gives (project.renameFiles rename announce) (told project))
    (speaks : ∀ text detail, Maintains property (say request text detail))
    (waits : Maintains property (waitForQueue tool request))
    (empties : Maintains property (emptyWorkingDirectory tool request))
    (exposes : ∀ base path, Maintains property (exposeFile base path))
    (renamed : ∀ start state project, property start → property state →
      told start.project project → property { state with project := project }) :
    Maintains property (prepareResources tool request) := by
  have names : Maintains property (do
      let project := (← get).project
      let renamed ← project.renameFiles (exposeFile project.baseDirectory) fun name =>
        say request preparingMessage (some name)
      modify fun state => { state with project := renamed }) := by
    apply meets_get_bind
    intro start holds
    have renames : Maintains property
        (start.project.renameFiles (exposeFile start.project.baseDirectory) fun name =>
          say request preparingMessage (some name)) :=
      carries_renameFiles (exposes _) (fun _ => speaks _ _) _
    have told := Meets.giving renames (tells _ _ start.project)
    apply Meets.bind (told.start holds)
    intro project
    apply Meets.modify
    intro state kept
    exact renamed start state project holds kept.1 kept.2
  have rest : Maintains property (do
      emptyWorkingDirectory tool request
      say request preparingMessage none
      let project := (← get).project
      let renamed ← project.renameFiles (exposeFile project.baseDirectory) fun name =>
        say request preparingMessage (some name)
      modify fun state => { state with project := renamed }) := by
    apply Meets.bind empties
    intro _
    apply Meets.bind (speaks _ _)
    intro _
    exact names
  unfold prepareResources
  apply meets_get_bind
  intro start holds
  apply Meets.start _ holds
  dsimp only
  split
  · apply Meets.bind (speaks _ _)
    intro _
    apply Meets.bind waits
    intro _
    exact rest
  · exact rest

end GameExport
