import GameExport.Proofs.Export.Confinement
import GameExport.Proofs.Export.LinkClosure
import GameExport.Proofs.Export.Proceeding
import GameExport.Proofs.Queue.Outputs

/-! # Outputs that an export accepts

An export goes on after a job if the output of the job is there, whoever made it. Main statement: if
a job comes to nothing, then its output is there when the wait for it has ended exactly if a
directory stood there when the worker turned to the job, and if none did, the export fails. The
system is one that lets files be removed.
-/

namespace GameExport

open ExportM

/-- The wait for a job has ended in time, and then the output of the job was there. -/
structure SubmittedJob.IsAccepted (record : SubmittedJob) : Prop where
  inTime : record.ended.isIdle = true
  present : record.ended.workshop.world.files.pathExists record.job.call.output = true

def SubmittedJob.rejection (tool : ExportTool) (request : ExportRequest) (record : SubmittedJob) :
    ExportError :=
  if record.ended.isIdle then
    match record.job.unit with
    | some unit => .compileFailed unit record.ended.workshop.queue.log
    | none => .linkFailed record.ended.workshop.queue.log
  else interruption tool request record.ended.workshop.world

variable {tool : ExportTool} {request : ExportRequest} {await : Awaiting}

theorem ExportRequest.Submits.failsCleanly {job : Job} (submits : request.Submits tool job) :
    job.FailsCleanly := by
  cases submits with
  | source =>
      intro preparation member
      cases member
  | link =>
      intro preparation member
      cases member
  | events project compiled unit =>
      intro preparation member world failed
      obtain rfl := Option.some.inj member
      unfold writeCode at failed ⊢
      split at failed
      · rfl
      · rfl
      · split at failed
        · exact absurd rfl failed
        · rfl

/-! ## Jobs that are accepted -/

/-- Every job so far has been accepted. -/
def ExportState.Accepts (tool : ExportTool) (request : ExportRequest) (state : ExportState) :
    Prop :=
  ∀ record ∈ state.jobs, request.Submits tool record.job ∧ record.IsAccepted

/-- If a job has not been accepted, that has ended the export. -/
def ExportState.Rejects (tool : ExportTool) (request : ExportRequest) (error : ExportError)
    (state : ExportState) : Prop :=
  ∀ record ∈ state.jobs, request.Submits tool record.job ∧
    (record.IsAccepted ∨ error = record.rejection tool request)

/-- All jobs so far have been accepted but the last one. The wait for that has ended in time, and
next its output is looked for. -/
def ExportState.LooksFor (tool : ExportTool) (request : ExportRequest) (job : Job)
    (state : ExportState) : Prop :=
  ∃ earlier ended, state.jobs = earlier ++ [⟨job, ended⟩] ∧
    (∀ record ∈ earlier, request.Submits tool record.job ∧ record.IsAccepted) ∧
    ended.isIdle = true ∧ state.workshop = ended.workshop

namespace ExportState

variable {state : ExportState} {job : Job} {error : ExportError}

theorem Accepts.rejects (accepts : state.Accepts tool request) :
    state.Rejects tool request error :=
  fun record member => ⟨(accepts record member).1, .inl (accepts record member).2⟩

theorem Accepts.rejects_waited (accepts : state.Accepts tool request)
    (submits : request.Submits tool job)
    (late : (await.ends (state.workshop.submit job)).isIdle = false) :
    (state.waited await job).Rejects tool request
      (interruption tool request (state.waited await job).workshop.world) := by
  intro record member
  rcases List.mem_append.mp member with member | member
  · exact accepts.rejects record member
  · rw [List.mem_singleton.mp member]
    refine ⟨submits, .inr ?_⟩
    rw [SubmittedJob.rejection, late]
    rfl

theorem LooksFor.accepts (looks : state.LooksFor tool request job)
    (submits : request.Submits tool job)
    (present : state.files.pathExists job.call.output = true) : state.Accepts tool request := by
  obtain ⟨earlier, ended, jobs, accepted, inTime, same⟩ := looks
  intro record member
  rw [jobs] at member
  rcases List.mem_append.mp member with member | member
  · exact accepted record member
  · rw [List.mem_singleton.mp member]
    rw [ExportState.files, same] at present
    exact ⟨submits, inTime, present⟩

theorem LooksFor.rejects (looks : state.LooksFor tool request job)
    (submits : request.Submits tool job)
    (error_eq : error = match job.unit with
      | some unit => .compileFailed unit state.workshop.queue.log
      | none => .linkFailed state.workshop.queue.log) :
    state.Rejects tool request error := by
  obtain ⟨earlier, ended, jobs, accepted, inTime, same⟩ := looks
  intro record member
  rw [jobs] at member
  rcases List.mem_append.mp member with member | member
  · exact ⟨(accepted record member).1, .inl (accepted record member).2⟩
  · rw [List.mem_singleton.mp member]
    refine ⟨submits, .inr ?_⟩
    rw [error_eq, SubmittedJob.rejection, if_pos inTime, same]

end ExportState

/-! ## Every part of an export -/

theorem proceeding_accepts :
    Proceeding request (ExportState.Accepts tool request)
      (fun error => ExportState.Rejects tool request error) where
  said := fun _ _ _ => id
  progressed := fun _ _ => id
  recorded := fun error => (keepsJobs_of_core (keeps_record request error)).meets
    (fun jobs => ∀ record ∈ jobs, request.Submits tool record.job ∧ record.IsAccepted)
    fun _ _ accepts => ExportState.Accepts.rejects accepts
  failed := fun _ _ _ accepts => accepts.rejects
  changed := fun _ _ => id
  kept := fun _ _ _ _ _ _ => id

theorem looksFor_submitAndWait {job : Job} (submits : request.Submits tool job) :
    Meets (ExportState.Accepts tool request) (await.submitAndWait tool request job)
      (fun _ => ExportState.LooksFor tool request job)
      fun error => ExportState.Rejects tool request error := by
  apply meets_waited
  · exact fun _ accepts _ => accepts.rejects
  · exact fun state accepts _ inTime => ⟨state.jobs, _, rfl, accepts, inTime, rfl⟩
  · exact fun _ accepts _ late => accepts.rejects_waited submits late

theorem checked_accepts :
    LastingChecked tool request await (request.Submits tool) (ExportState.Accepts tool request)
      fun error => ExportState.Rejects tool request error where
  said := proceeding_accepts.said
  progressed := proceeding_accepts.progressed
  failed := proceeding_accepts.failed
  compiled := by
    intro job files submits output unit
    apply Meets.bind (looksFor_submitAndWait submits)
    intro _
    apply meets_get_bind
    intro state looks
    split
    · rename_i present
      apply Meets.set
      intro _ _
      exact looks.accepts submits (output ▸ present)
    · apply Meets.throw
      intro _ same
      rw [same]
      exact looks.rejects submits (by rw [unit])
  linked := by
    intro job submits unit
    apply Meets.bind (looksFor_submitAndWait submits)
    intro _
    apply meets_get_bind
    intro state looks
    split
    · rename_i present
      apply Meets.pure
      intro _ same
      rw [same]
      exact looks.accepts submits present
    · apply meets_get_bind
      intro _ same
      apply Meets.throw
      intro _ later
      rw [later, same]
      exact looks.rejects submits (by rw [unit])
  met := fun _ _ => id

theorem carries_exportStages_accepts :
    Carries (ExportState.Accepts tool request) (fun error => ExportState.Rejects tool request error)
      (await.exportStages tool request) := by
  apply proceeding_accepts.exportStages_checked checked_accepts
  · exact fun _ _ => id
  · apply meets_waitForQueue
    · exact fun _ accepts _ => accepts
    · exact fun _ accepts _ => ExportState.Accepts.rejects accepts

theorem accepted_or_rejected (await : Awaiting) {workshop : Workshop} {record : SubmittedJob}
    (submitted : record ∈ ((await.exportStages tool request).run.run
      (.initial workshop request.project)).2.jobs) :
    request.Submits tool record.job ∧ (record.IsAccepted ∨
      (await.exportGame tool request workshop).report.failure =
        some (record.rejection tool request)) := by
  have carries : Carries (ExportState.Accepts tool request)
      (fun error => ExportState.Rejects tool request error) (await.exportStages tool request) :=
    carries_exportStages_accepts
  have outcome := carries (.initial workshop request.project)
    fun _ member => (List.not_mem_nil member).elim
  rw [Awaiting.report_exportGame]
  generalize (await.exportStages tool request).run.run (.initial workshop request.project) = run
    at outcome submitted ⊢
  rcases run with ⟨result, state⟩
  cases result with
  | ok => exact ⟨(outcome record submitted).1, .inl (outcome record submitted).2⟩
  | error error =>
      obtain ⟨submits, accepted | same⟩ := outcome record submitted
      · exact ⟨submits, .inl accepted⟩
      · exact ⟨submits, .inr (congrArg some same)⟩

/-- If a job of an export comes to nothing, then its output is there when the wait for it has ended
exactly if a directory stood there when the worker turned to the job: in a system that lets files be
removed, a directory is all that is not cleared away. If none stood there, the export fails because
of that job, or because it was interrupted while it waited. -/
theorem exportGame_rejectsUnmade (await : Awaiting) (tool : ExportTool) (request : ExportRequest)
    (workshop : Workshop) {record : SubmittedJob} {turned : Workshop}
    (submitted : record ∈ ((await.exportStages tool request).run.run
      (.initial workshop request.project)).2.jobs)
    (nothing : Workshop.ComesToNothing record.job turned record.ended.workshop) :
    (record.ended.workshop.world.files.pathExists record.job.call.output = true ↔
      turned.world.files.HoldsDirectory record.job.call.output) ∧
    (¬ turned.world.files.HoldsDirectory record.job.call.output →
      (await.exportGame tool request workshop).report.failure =
        some (record.rejection tool request)) := by
  obtain ⟨submits, outcome⟩ := accepted_or_rejected await submitted
  have stands := nothing.pathExists_iff submits.failsCleanly
  refine ⟨stands, fun empty => ?_⟩
  rcases outcome with accepted | rejected
  · exact absurd (stands.mp accepted.present) empty
  · exact rejected

/-! ## A level whose code is refused -/

/-- An export that starts with an empty queue and lets the worker go on by itself submits each of
its jobs to an empty queue. -/
theorem waitedFor_exportStages {workshop : Workshop} (empty : workshop.queue.IsEmpty)
    {record : SubmittedJob}
    (submitted : record ∈ ((exportStages tool request).run.run
      (.initial workshop request.project)).2.jobs) :
    record.IsWaitedFor ⟨awaited tool request⟩ Queue.IsEmpty request.token := by
  have carries : Carries
      (fun state => state.workshop.queue.IsEmpty ∧ ∀ record ∈ state.jobs,
        record.IsWaitedFor ⟨awaited tool request⟩ Queue.IsEmpty request.token)
      (fun _ state => ∀ record ∈ state.jobs,
        record.IsWaitedFor ⟨awaited tool request⟩ Queue.IsEmpty request.token)
      (Awaiting.exportStages ⟨awaited tool request⟩ tool request) := by
    apply carries_exportStages_ready
    · intro start isEmpty idle
      apply Workshop.isEmpty_of_wait _ idle
      simp [Queue.Balanced, isEmpty.announced, isEmpty.waiting, isEmpty.running, isEmpty.pending]
    · exact fun _ _ isEmpty unfired sameToken idle =>
        (Workshop.wait_submit isEmpty unfired sameToken.symm idle).1
  rw [exportStages_awaited] at carries
  have outcome := carries (.initial workshop request.project)
    ⟨empty, fun _ member => (List.not_mem_nil member).elim⟩
  generalize (exportStages tool request).run.run (.initial workshop request.project) = run
    at outcome submitted
  rcases run with ⟨result, state⟩
  cases result with
  | ok => exact outcome.2 record submitted
  | error => exact outcome record submitted

def refusingTool : ExportTool :=
  { obligingTool with write := fun _ unit _ => .error (.refused ⟨unit, .other "no code"⟩) }

def levelRequest : ExportRequest :=
  { launcherRequest "Hero" with
    project := { (launcherRequest "Hero").project with
      scenes := [⟨"Level", [], [], false, none⟩] } }

def levelObject : Path := ⟨"/base/CppPlatform/Generated/GDSceneLevelRuntimeObjectFile.o"⟩

def leftWorkshop (left : Node) : Workshop where
  world := ⟨⟨runtimeWorkshop.world.files.nodes ++
    [(["base", "CppPlatform", "Generated"], .directory),
      (["base", "CppPlatform", "Generated", "GDSceneLevelRuntimeObjectFile.o"], left)], []⟩, []⟩
  queue := .idle ⟨"/log"⟩ none

def levelPrepared (left : Node) : ExportState :=
  stateAfter (untilCompiling refusingTool levelRequest)
    (.initial (leftWorkshop left) levelRequest.project)

def levelOpened (left : Node) : ExportState :=
  stateAfter (setOut refusingTool levelRequest) (levelPrepared left)

def levelAnalysis : InclusionAnalysis := ⟨["Level"], [(.scene "Level", .ok .none)]⟩

def levelStages (left : Node) : Except ExportError Unit × ExportState :=
  (do
    compileLoops refusingTool levelRequest (levelOpened left).project levelAnalysis
    goThrough refusingTool levelRequest [.copyResources, .stripAndEncrypt, .link,
      .copyPlatformFiles, .package, .done]).run.run (levelOpened left)

theorem run_levelStages {left : Node}
    (prepares : ((untilCompiling refusingTool levelRequest).run.run
      (.initial (leftWorkshop left) levelRequest.project)).1.isOk = true)
    (opens : ((setOut refusingTool levelRequest).run.run (levelPrepared left)).1.isOk = true) :
    (exportStages refusingTool levelRequest).run.run
      (.initial (leftWorkshop left) levelRequest.project) = levelStages left := by
  have prepares := run_eq_of_isOk prepares
  have isStart : (ExportState.initial (leftWorkshop left) levelRequest.project).compilation.IsStart
      levelRequest := ⟨⟨rfl, rfl, rfl, rfl⟩, rfl⟩
  have prepared := prepared_untilCompiling.of_ok isStart prepares
  have keeps : Keeps (fun state => state.project.outline) (setOut refusingTool levelRequest) :=
    .bind (.modify fun _ => rfl) fun _ => keepsOutline_openGenerated refusingTool levelRequest
  have outline : (levelOpened left).project.outline = levelRequest.project.outline :=
    (keeps (levelPrepared left)).trans prepared.1.outline
  have analyzed : levelRequest.project.inclusionAnalysis = levelAnalysis := by cbv
  refine run_exportStages_of_opened prepares (run_eq_of_isOk opens) ?_
  exact (Project.inclusionAnalysis_of_outline outline).trans analyzed

theorem refuses_of_submits {job : Job} (submits : levelRequest.Submits refusingTool job)
    (prepares : job.preparation.isSome = true) :
    ∃ preparation, job.preparation = some preparation ∧ ∀ world, (preparation world).2 ≠ .done := by
  cases submits with
  | source => cases prepares
  | link => cases prepares
  | events => exact ⟨_, rfl, fun _ => Preparation.noConfusion⟩

theorem comesToNothing_level {left : Node}
    (runs : (exportStages refusingTool levelRequest).run.run
      (.initial (leftWorkshop left) levelRequest.project) = levelStages left)
    {record : SubmittedJob} (member : record ∈ (levelStages left).2.jobs)
    (prepares : record.job.preparation.isSome = true) :
    ∃ turned, Workshop.ComesToNothing record.job turned record.ended.workshop := by
  rw [← runs] at member
  obtain ⟨start, empty, unfired, sameToken, ended⟩ :=
    waitedFor_exportStages ⟨rfl, rfl, rfl, rfl⟩ member
  rw [← exportStages_awaited] at member
  have submits := (accepted_or_rejected ⟨awaited refusingTool levelRequest⟩ member).1
  obtain ⟨preparation, held, failed⟩ := refuses_of_submits submits prepares
  rw [ended]
  exact ⟨_,
    Workshop.comesToNothing_of_failed empty (sameToken ▸ unfired) sameToken.symm held failed⟩

/-- An old object of the level is gone once its job has come to nothing, and the export fails. -/
theorem exportGame_rejectsUnmade_level :
    (leftWorkshop (.file [9])).world.files.pathExists levelObject = true ∧
    ∃ record ∈ ((exportStages refusingTool levelRequest).run.run
        (.initial (leftWorkshop (.file [9])) levelRequest.project)).2.jobs, ∃ turned,
      Workshop.ComesToNothing record.job turned record.ended.workshop ∧
      record.job.call.output = levelObject ∧ ¬ turned.world.files.HoldsDirectory levelObject ∧
      record.ended.workshop.world.files.pathExists levelObject = false ∧
      (exportGame refusingTool levelRequest (leftWorkshop (.file [9]))).report.failure =
        some (.compileFailed (.scene "Level") ⟨"/log"⟩) := by
  have runs : (exportStages refusingTool levelRequest).run.run
      (.initial (leftWorkshop (.file [9])) levelRequest.project) = levelStages (.file [9]) :=
    run_levelStages (by decide +kernel) (by decide +kernel)
  have facts : (leftWorkshop (.file [9])).world.files.pathExists levelObject = true ∧
      (levelStages (.file [9])).2.jobs.map (fun record => (record.job.preparation.isSome,
        record.job.call.output, record.ended.workshop.world.files.pathExists levelObject,
        record.rejection refusingTool levelRequest)) =
      [(true, levelObject, false, .compileFailed (.scene "Level") ⟨"/log"⟩)] := by
    decide +kernel
  obtain ⟨old, facts⟩ := facts
  obtain ⟨record, same, fact⟩ := List.map_eq_singleton_iff.mp facts
  simp only [Prod.mk.injEq] at fact
  obtain ⟨prepares, output, gone, rejection⟩ := fact
  have member : record ∈ (levelStages (.file [9])).2.jobs := by
    rw [same]
    exact List.mem_singleton_self record
  obtain ⟨turned, nothing⟩ := comesToNothing_level runs member prepares
  rw [← runs] at member
  have submitted := member
  rw [← exportStages_awaited] at submitted
  obtain ⟨stands, rejects⟩ := exportGame_rejectsUnmade ⟨awaited refusingTool levelRequest⟩
    refusingTool levelRequest (leftWorkshop (.file [9])) submitted nothing
  rw [output, gone] at stands
  have empty : ¬ turned.world.files.HoldsDirectory levelObject :=
    fun holds => Bool.noConfusion (stands.mpr holds)
  rw [output, rejection, exportGame_awaited] at rejects
  exact ⟨old, record, member, turned, nothing, output, empty, gone, rejects empty⟩

/-- A directory in the place of the object of the level is taken for the object. No code has been
written and the compiler has not been called for the level, but the game is linked and the export
ends without any error. -/
theorem not_always_rejectsUnmade :
    ∃ record ∈ ((exportStages refusingTool levelRequest).run.run
        (.initial (leftWorkshop .directory) levelRequest.project)).2.jobs, ∃ turned,
      Workshop.ComesToNothing record.job turned record.ended.workshop ∧
      record.job.unit = some (.scene "Level") ∧
      record.ended.workshop.world.files.pathExists record.job.call.output = true ∧
      ((exportStages refusingTool levelRequest).run.run
        (.initial (leftWorkshop .directory) levelRequest.project)).2.workshop.queue.calls.map
          (·.kind) = [.link] ∧
      (exportGame refusingTool levelRequest (leftWorkshop .directory)).report.isSuccess = true := by
  have runs : (exportStages refusingTool levelRequest).run.run
      (.initial (leftWorkshop .directory) levelRequest.project) = levelStages .directory :=
    run_levelStages (by decide +kernel) (by decide +kernel)
  have facts : (levelStages .directory).2.jobs.map (fun record => (record.job.unit,
        record.job.preparation.isSome,
        record.ended.workshop.world.files.pathExists record.job.call.output)) =
      [(some (.scene "Level"), true, true), (none, false, true)] ∧
      (levelStages .directory).2.workshop.queue.calls.map (·.kind) = [.link] ∧
      (reportOf (levelStages .directory).2 (levelStages .directory).1).isSuccess = true := by
    decide +kernel
  obtain ⟨jobs, calls, success⟩ := facts
  obtain ⟨record, others, same, fact, _⟩ := List.map_eq_cons_iff.mp jobs
  simp only [Prod.mk.injEq] at fact
  obtain ⟨unit, prepares, present⟩ := fact
  have member : record ∈ (levelStages .directory).2.jobs := by
    rw [same]
    exact List.mem_cons_self
  obtain ⟨turned, nothing⟩ := comesToNothing_level runs member prepares
  have report : (exportGame refusingTool levelRequest (leftWorkshop .directory)).report =
      reportOf (levelStages .directory).2 (levelStages .directory).1 := by
    rw [← runs]
    rfl
  rw [report, runs]
  exact ⟨record, member, turned, nothing, unit, present, calls, success⟩

end GameExport
