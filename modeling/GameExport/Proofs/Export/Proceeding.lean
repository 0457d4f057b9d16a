import GameExport.Proofs.Export.Enduring

/-! # What an export goes through

An export is made of few kinds of steps: it tells the host something, records an error, ends with a
fatal one, changes files and what it keeps for itself, and waits for the queue. Main statement: what
holds through each of these steps holds through every stage.
-/

namespace GameExport

open ExportM

/-- What holds goes on to hold through every step of an export but its waits. What holds once the
export has ended is left open. -/
structure Proceeding (request : ExportRequest) (holds : ExportState → Prop)
    (ended : ExportError → ExportState → Prop) : Prop where
  said : ∀ text detail, Carries holds ended (say request text detail)
  progressed : ∀ value, Carries holds ended (progress request value)
  recorded : ∀ error, Carries holds ended (record request error)
  failed : ∀ error state, error.isFatal = true → holds state → ended error state
  changed : ∀ state files, holds state → holds (state.withFiles files)
  kept : ∀ state project resources sources objects artifacts, holds state →
    holds { state with project, resources, sources, objects, artifacts }

/-! ## Waits -/

inductive ExportRequest.Submits (tool : ExportTool) (request : ExportRequest) : Job → Prop
  | source (files : UnitFiles) : Submits tool request (sourceJob request files)
  | events (project : Project) (compiled : NameSet) (unit : UnitName) :
      Submits tool request (eventsJob tool request project compiled unit)
  | link (project : Project) (objects : List Path) (files : FileTree) :
      Submits tool request (linkJob tool request project objects files)

theorem ExportRequest.Submits.token {tool : ExportTool} {request : ExportRequest} {job : Job}
    (submits : request.Submits tool job) : job.token = request.token := by
  cases submits with
  | source => rfl
  | events => rfl
  | link => rfl

section Waits

variable {tool : ExportTool} {request : ExportRequest} {await : Awaiting}
  {holds : ExportState → Prop} {ended : ExportError → ExportState → Prop}

theorem meets_waitForQueue {after : ExportState → Prop}
    (success : ∀ state, holds state → (await.ends state.workshop).isIdle = true →
      after (state.resumed (await.ends state.workshop)))
    (failure : ∀ state, holds state → (await.ends state.workshop).isIdle = false →
      ended (interruption tool request (await.ends state.workshop).workshop.world)
        (state.resumed (await.ends state.workshop))) :
    Meets holds (await.waitForQueue tool request) (fun _ => after) ended := by
  apply meets_get_bind
  intro start held
  apply meets_resume tool request
  · intro idle state same
    exact same ▸ success start held idle
  · intro busy state same
    exact same ▸ failure start held busy

def ExportState.waited (await : Awaiting) (job : Job) (state : ExportState) : ExportState :=
  let ended := await.ends (state.workshop.submit job)
  (state.submitted ⟨job, ended⟩).resumed ended

theorem meets_waited {job : Job} {after : ExportState → Prop}
    (skipped : ∀ state, holds state → state.workshop.world.hasFired request.token = true →
      ended (interruption tool request state.workshop.world) state)
    (success : ∀ state, holds state → state.workshop.world.hasFired request.token = false →
      (await.ends (state.workshop.submit job)).isIdle = true → after (state.waited await job))
    (failure : ∀ state, holds state → state.workshop.world.hasFired request.token = false →
      (await.ends (state.workshop.submit job)).isIdle = false →
      ended (interruption tool request (state.waited await job).workshop.world)
        (state.waited await job)) :
    Meets holds (await.submitAndWait tool request job) (fun _ => after) ended := by
  apply meets_get_bind
  intro start held
  dsimp only
  split
  · rename_i fired
    apply meets_throw_bind
    intro state same
    exact same ▸ skipped start held fired
  · rename_i unfired
    have unfired : start.workshop.world.hasFired request.token = false := by simpa using unfired
    apply meets_modify_bind
    apply meets_resume tool request
    · intro idle state same
      exact same ▸ success start held unfired idle
    · intro busy state same
      exact same ▸ failure start held unfired busy

end Waits

namespace Proceeding

variable {tool : ExportTool} {request : ExportRequest} {holds : ExportState → Prop}
  {ended : ExportError → ExportState → Prop} (proceeds : Proceeding request holds ended)

include proceeds

/-! ## Files -/

theorem attempt {ε : Type} (change : FileTree → Except ε FileTree) (blame : ε → ExportError) :
    Carries holds ended (attempt request change blame) := by
  apply meets_get_bind
  intro start held
  apply Meets.start _ held
  split
  · exact Meets.modify fun state => proceeds.changed state _
  · exact proceeds.recorded _

theorem changingFiles {ε α : Type} (change : FileTree → FileTree × Except ε α) :
    Carries holds ended (changingFiles change) := by
  apply meets_get_bind
  intro start held
  apply meets_modify_bind
  apply Meets.pure
  intro state same
  exact same ▸ proceeds.changed start _ held

/-! ## Stages without jobs -/

theorem validateTargets : Carries holds ended (validateTargets request) := by
  apply Meets.bind (proceeds.progressed _)
  intro _
  split
  · exact Meets.throw fun state => proceeds.failed _ state rfl
  · exact Meets.pure fun _ => id

theorem emptyWorkingDirectory : Carries holds ended (emptyWorkingDirectory tool request) := by
  unfold GameExport.emptyWorkingDirectory
  apply Meets.bind (proceeds.changingFiles _)
  intro created
  cases created with
  | error cause => exact proceeds.recorded _
  | ok =>
      apply meets_get_bind
      intro start held
      apply Meets.start _ held
      dsimp only
      split
      · exact proceeds.recorded _
      · exact Meets.forM_keeping fun entry _ => proceeds.attempt _ _

theorem renameResources : Carries holds ended (Awaiting.renameResources request) := by
  apply meets_get_bind
  intro start held
  apply Meets.start _ held
  have exposes (path : String) :
      Carries holds ended (exposeFile start.project.baseDirectory path) :=
    fun state => proceeds.kept state state.project _ state.sources state.objects state.artifacts
  apply Meets.bind (carries_renameFiles exposes (fun name => proceeds.said _ _) start.project)
  intro renamed
  exact Meets.modify fun state =>
    proceeds.kept state renamed state.resources state.sources state.objects state.artifacts

theorem copyResources : Carries holds ended (copyResources tool request) := by
  apply Meets.bind (proceeds.said _ _)
  intro _
  apply meets_get_bind
  intro start held
  apply Meets.start _ held
  apply Meets.forM_keeping
  intro entry _
  apply Meets.bind (proceeds.said _ _)
  intro _
  apply Meets.bind (proceeds.attempt _ _)
  intro _
  exact proceeds.progressed _

theorem makeGenerated : Carries holds ended (makeGenerated tool request) := by
  apply Meets.bind (proceeds.changingFiles _)
  intro created
  cases created with
  | error cause => exact proceeds.recorded _
  | ok => exact Meets.pure fun _ => id

theorem removeWorkingFile (name : String) :
    Carries holds ended (removeWorkingFile tool request name) := by
  unfold GameExport.removeWorkingFile
  exact proceeds.attempt _ _

theorem writeDescriptor : Carries holds ended (writeDescriptor tool request) := by
  apply Meets.bind (proceeds.said _ _)
  intro _
  apply meets_get_bind
  intro start held
  apply Meets.start _ held
  apply Meets.bind (proceeds.attempt _ _)
  intro _
  apply Meets.bind (proceeds.progressed _)
  intro _
  apply Meets.bind (proceeds.said _ _)
  intro _
  apply Meets.bind (proceeds.attempt _ _)
  intro _
  apply Meets.bind (proceeds.removeWorkingFile _)
  intro _
  exact proceeds.progressed _

theorem packWorkingFiles : Carries holds ended (packWorkingFiles tool request) := by
  unfold GameExport.packWorkingFiles
  apply meets_get_bind
  intro start held
  apply Meets.start _ held
  split
  · exact Meets.throw fun state => proceeds.failed _ state rfl
  · apply Meets.bind (proceeds.changingFiles _)
    intro packed
    cases packed with
    | error cause => exact Meets.throw fun state => proceeds.failed _ state rfl
    | ok => exact Meets.forM_keeping fun name _ => proceeds.removeWorkingFile name

theorem stripAndEncrypt : Carries holds ended (stripAndEncrypt tool request) := by
  apply Meets.bind proceeds.writeDescriptor
  intro _
  apply Meets.bind (proceeds.said _ _)
  intro _
  exact proceeds.packWorkingFiles

theorem copyPlatformFiles : Carries holds ended (copyPlatformFiles tool request) := by
  have copies : Carries holds ended (do
      (platformFiles tool request.options (← get).project).forM (copyPlatformFile tool request)
      progress request (.percent 95)) := by
    apply meets_get_bind
    intro start held
    apply Meets.start _ held
    apply Meets.bind (Meets.forM_keeping fun file _ => proceeds.attempt _ _)
    intro _
    exact proceeds.progressed _
  unfold GameExport.copyPlatformFiles
  apply Meets.bind (proceeds.said _ _)
  intro _
  dsimp only
  split
  · apply Meets.bind (proceeds.said _ _)
    intro _
    exact copies
  · exact copies

/-! ## Packaging -/

theorem addArtifact (path : Path) : Carries holds ended (addArtifact path) :=
  Meets.modify fun state =>
    proceeds.kept state state.project state.resources state.sources state.objects _

theorem exportFile (name : String) : Carries holds ended (exportFile tool request name) := by
  unfold GameExport.exportFile
  apply meets_get_bind
  intro start held
  apply Meets.start _ held
  split
  · rename_i files _
    have moves : Carries holds ended (modify fun state => state.withFiles files) :=
      Meets.modify fun state => proceeds.changed state files
    apply Meets.bind moves
    intro _
    exact proceeds.addArtifact _
  · exact proceeds.recorded _

theorem packageVerbatim : Carries holds ended (packageVerbatim tool request) := by
  unfold GameExport.packageVerbatim
  apply meets_get_bind
  intro start held
  apply Meets.start _ held
  split
  · exact Meets.throw fun state => proceeds.failed _ state rfl
  · exact Meets.forM_keeping fun name _ => proceeds.exportFile name

theorem joinExecutable : Carries holds ended (joinExecutable tool request) := by
  apply meets_get_bind
  intro start held
  apply Meets.start _ held
  apply Meets.bind (proceeds.changingFiles _)
  intro joined
  cases joined with
  | error cause => exact proceeds.recorded _
  | ok skipped =>
      apply Meets.bind (proceeds.addArtifact _)
      intro _
      exact Meets.forM_keeping fun _ _ => proceeds.recorded _

theorem packageCompressed : Carries holds ended (packageCompressed tool request) := by
  apply Meets.bind (proceeds.said _ _)
  intro _
  apply Meets.bind (proceeds.changingFiles _)
  intro archived
  cases archived with
  | error cause =>
      apply Meets.bind (proceeds.recorded _)
      intro _
      exact proceeds.joinExecutable
  | ok => exact proceeds.joinExecutable

theorem package : Carries holds ended (package tool request) := by
  have fills : Carries holds ended (
      if request.options.isCompressed then GameExport.packageCompressed tool request
      else GameExport.packageVerbatim tool request) := by
    split
    · exact proceeds.packageCompressed
    · exact proceeds.packageVerbatim
  apply Meets.bind (proceeds.changingFiles _)
  intro created
  cases created with
  | error cause =>
      apply Meets.bind (proceeds.recorded _)
      intro _
      exact fills
  | ok => exact fills

/-! ## All stages -/

variable {await : Awaiting}

theorem prepareResources (drains : Carries holds ended (await.waitForQueue tool request)) :
    Carries holds ended (await.prepareResources tool request) := by
  have rest : Carries holds ended (do
      GameExport.emptyWorkingDirectory tool request
      say request preparingMessage none
      Awaiting.renameResources request) := by
    apply Meets.bind proceeds.emptyWorkingDirectory
    intro _
    apply Meets.bind (proceeds.said _ _)
    intro _
    exact proceeds.renameResources
  unfold Awaiting.prepareResources
  apply meets_get_bind
  intro start held
  apply Meets.start _ held
  split
  · apply Meets.bind (proceeds.said _ _)
    intro _
    apply Meets.bind drains
    intro _
    exact rest
  · exact rest

theorem lasting (waits : ∀ job, request.Submits tool job →
      Carries holds ended (await.submitAndWait tool request job)) :
    Lasting tool request await (request.Submits tool) holds ended where
  said := proceeds.said
  progressed := proceeds.progressed
  failed := proceeds.failed
  waited := waits
  taken := fun state _ =>
    proceeds.kept state state.project state.resources state.sources _ state.artifacts
  met := fun state _ =>
    proceeds.kept state state.project state.resources _ state.objects state.artifacts

section Checked

variable (checked : LastingChecked tool request await (request.Submits tool) holds ended)

include checked

theorem compileUnits_checked : Carries holds ended (await.compileUnits tool request) := by
  apply checked.compileUnits
  · exact fun _ _ => .source _
  · exact fun state => proceeds.kept state _ state.resources state.sources state.objects
      state.artifacts
  · exact proceeds.makeGenerated
  · exact .events

theorem workOf_checked (stage : Stage)
    (drains : stage = .prepareResources → Carries holds ended (await.waitForQueue tool request)) :
    Carries holds ended (await.workOf tool request stage) := by
  cases stage with
  | start => exact proceeds.said _ _
  | validateTargets => exact proceeds.validateTargets
  | prepareResources => exact proceeds.prepareResources (drains rfl)
  | compileUnits => exact proceeds.compileUnits_checked checked
  | copyResources => exact proceeds.copyResources
  | stripAndEncrypt => exact proceeds.stripAndEncrypt
  | link => exact checked.link .link
  | copyPlatformFiles => exact proceeds.copyPlatformFiles
  | package => exact proceeds.package
  | done => exact proceeds.progressed _

theorem goThrough_checked {stages : List Stage}
    (entered : ∀ state stages, holds state → holds { state with stages := stages })
    (drains : .prepareResources ∈ stages → Carries holds ended (await.waitForQueue tool request)) :
    Carries holds ended (await.goThrough tool request stages) := by
  apply Meets.forM_keeping
  intro stage member
  have enters : Carries holds ended (enter stage) := fun state => entered state _
  apply Meets.bind enters
  intro _
  exact proceeds.workOf_checked checked stage fun same => drains (same ▸ member)

/-- What holds through every step holds through the whole export, if each job is taken together
with the look at its output. -/
theorem exportStages_checked
    (entered : ∀ state stages, holds state → holds { state with stages := stages })
    (drains : Carries holds ended (await.waitForQueue tool request)) :
    Carries holds ended (await.exportStages tool request) := by
  apply Meets.bind (proceeds.workOf_checked checked .start fun _ => drains)
  intro _
  exact proceeds.goThrough_checked checked entered fun _ => drains

end Checked

theorem workOf (stage : Stage)
    (drains : stage = .prepareResources → Carries holds ended (await.waitForQueue tool request))
    (waits : ∀ job, request.Submits tool job →
      Carries holds ended (await.submitAndWait tool request job)) :
    Carries holds ended (await.workOf tool request stage) :=
  proceeds.workOf_checked (proceeds.lasting waits).checked stage drains

theorem goThrough {stages : List Stage}
    (entered : ∀ state stages, holds state → holds { state with stages := stages })
    (drains : .prepareResources ∈ stages → Carries holds ended (await.waitForQueue tool request))
    (waits : ∀ job, request.Submits tool job →
      Carries holds ended (await.submitAndWait tool request job)) :
    Carries holds ended (await.goThrough tool request stages) :=
  proceeds.goThrough_checked (proceeds.lasting waits).checked entered drains

theorem exportStages (entered : ∀ state stages, holds state → holds { state with stages := stages })
    (drains : Carries holds ended (await.waitForQueue tool request))
    (waits : ∀ job, request.Submits tool job →
      Carries holds ended (await.submitAndWait tool request job)) :
    Carries holds ended (await.exportStages tool request) :=
  proceeds.exportStages_checked (proceeds.lasting waits).checked entered drains

end Proceeding

/-! ## One job after the other -/

/-- A job was submitted when the queue was ready and the token had not fired, and then waited
for. -/
def SubmittedJob.IsWaitedFor (await : Awaiting) (ready : Queue → Prop) (token : Token)
    (record : SubmittedJob) : Prop :=
  ∃ start : Workshop, ready start.queue ∧ start.world.hasFired token = false ∧
    record.job.token = token ∧ record.ended = await.ends (start.submit record.job)

section Ready

variable {tool : ExportTool} {request : ExportRequest} {await : Awaiting} {ready : Queue → Prop}

theorem proceeding_ready :
    Proceeding request
      (fun state => ready state.workshop.queue ∧
        ∀ record ∈ state.jobs, record.IsWaitedFor await ready request.token)
      fun _ state => ∀ record ∈ state.jobs, record.IsWaitedFor await ready request.token := by
  have keeping {part : ExportM Unit} (keeps : Keeps ExportState.core part) :
      Carries (fun state => ready state.workshop.queue ∧
        ∀ record ∈ state.jobs, record.IsWaitedFor await ready request.token)
      (fun _ state => ∀ record ∈ state.jobs, record.IsWaitedFor await ready request.token) part :=
    keeps.meets (fun core => ready core.queue ∧
      ∀ record ∈ core.jobs, record.IsWaitedFor await ready request.token) fun _ _ => And.right
  exact {
    said := fun text detail => keeping (keeps_say request text detail)
    progressed := fun value => keeping (keeps_progress request value)
    recorded := fun error => keeping (keeps_record request error)
    failed := fun _ _ _ => And.right
    changed := fun _ _ => id
    kept := fun _ _ _ _ _ _ => id }

/-- If the queue is ready again after each wait, then each job is submitted to a queue that is
ready. -/
theorem carries_exportStages_ready
    (drained : ∀ workshop : Workshop, ready workshop.queue →
      (await.ends workshop).isIdle = true → ready (await.ends workshop).workshop.queue)
    (done : ∀ (start : Workshop) (job : Job), ready start.queue →
      start.world.hasFired job.token = false → job.token = request.token →
      (await.ends (start.submit job)).isIdle = true →
      ready (await.ends (start.submit job)).workshop.queue) :
    Carries
      (fun state => ready state.workshop.queue ∧
        ∀ record ∈ state.jobs, record.IsWaitedFor await ready request.token)
      (fun _ state => ∀ record ∈ state.jobs, record.IsWaitedFor await ready request.token)
      (await.exportStages tool request) := by
  apply proceeding_ready.exportStages
  · exact fun _ _ => id
  · apply meets_waitForQueue
    · exact fun state isReady idle => ⟨drained _ isReady.1 idle, isReady.2⟩
    · exact fun _ isReady _ => isReady.2
  · intro job submits
    have sameToken := submits.token
    have waitedFor (state : ExportState) (isReady : ready state.workshop.queue ∧
          ∀ record ∈ state.jobs, record.IsWaitedFor await ready request.token)
        (unfired : state.workshop.world.hasFired request.token = false) :
        ∀ record ∈ (state.waited await job).jobs,
          record.IsWaitedFor await ready request.token := by
      intro record member
      rcases List.mem_append.mp member with member | member
      · exact isReady.2 record member
      · rw [List.mem_singleton.mp member]
        exact ⟨state.workshop, isReady.1, unfired, sameToken, rfl⟩
    apply meets_waited
    · exact fun _ isReady _ => isReady.2
    · intro state isReady unfired idle
      exact ⟨done _ job isReady.1 (sameToken ▸ unfired) sameToken idle,
        waitedFor state isReady unfired⟩
    · exact fun state isReady unfired _ => waitedFor state isReady unfired

end Ready

end GameExport
