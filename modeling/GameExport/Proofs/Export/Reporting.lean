import GameExport.Proofs.Export.Proceeding

/-! # What an export reports

Whatever happens to an export and however its waits end, its host learns just what its report says.
Main statement: the stages are entered in order, the report tells the last of them, only fatal
errors end the export and only others are recorded, and the host is told all of them in order and
at last, once, whether the export has succeeded.
-/

namespace GameExport

open ExportM

def errorTexts (notices : List (Notice Progress)) : List String :=
  notices.filterMap fun
    | .error text => some text
    | _ => none

def Notice.isEnding {π : Type} : Notice π → Bool
  | .succeeded | .failed => true
  | .message .. | .progress _ | .error _ | .idle => false

@[simp] theorem errorTexts_append (first second : List (Notice Progress)) :
    errorTexts (first ++ second) = errorTexts first ++ errorTexts second :=
  List.filterMap_append

@[simp] theorem errorTexts_idle (moments : Nat) :
    errorTexts (List.replicate moments .idle) = [] := by
  rw [errorTexts, List.filterMap_replicate_of_none rfl]

/-! ## While the export goes on -/

/-- What the host has been told of while an export is in its last stage. -/
structure ExportState.IsTold (stages : List Stage) (state : ExportState) : Prop where
  errors : errorTexts state.notices = state.warnings.map ExportError.message
  unended : ∀ notice ∈ state.notices, notice.isEnding = false
  minor : ∀ error ∈ state.warnings, error.isFatal = false
  entered : state.stages = stages

variable {tool : ExportTool} {request : ExportRequest} {await : Awaiting} {stages : List Stage}
  {state : ExportState}

def ExportState.IsFailed (stages : List Stage) (error : ExportError) (state : ExportState) : Prop :=
  error.isFatal = true ∧ state.IsTold stages

theorem ExportState.IsTold.tell (told : state.IsTold stages) {notices : List (Notice Progress)}
    (workshop : Workshop) (jobs : List SubmittedJob) (plain : errorTexts notices = [])
    (unended : ∀ notice ∈ notices, notice.isEnding = false) :
    IsTold stages { state with
      workshop := workshop
      jobs := jobs
      notices := state.notices ++ notices } where
  errors := by
    rw [errorTexts_append, plain, List.append_nil]
    exact told.errors
  unended := by
    intro notice member
    rcases List.mem_append.mp member with member | member
    · exact told.unended notice member
    · exact unended notice member
  minor := told.minor
  entered := told.entered

theorem ExportState.IsTold.resumed (told : state.IsTold stages) (jobs : List SubmittedJob)
    (ended : Workshop.WaitEnd) : ({ state with jobs := jobs }.resumed ended).IsTold stages := by
  refine told.tell ended.workshop jobs (errorTexts_idle _) fun notice member => ?_
  rw [List.eq_of_mem_replicate member]
  rfl

theorem carries_record_isTold (error : ExportError) :
    Carries (ExportState.IsTold stages) (ExportState.IsFailed stages) (record request error) := by
  unfold record
  split
  · rename_i fatal
    exact Meets.throw fun _ told => ⟨fatal, told⟩
  · rename_i minor
    intro state told
    refine ⟨?_, ?_, ?_, told.entered⟩
    · change errorTexts (state.notices ++ [.error error.message]) =
        (state.warnings ++ [error]).map ExportError.message
      rw [errorTexts_append, told.errors, List.map_append]
      rfl
    · intro notice member
      rcases List.mem_append.mp member with member | member
      · exact told.unended notice member
      · rw [List.mem_singleton.mp member]
        rfl
    · intro other member
      rcases List.mem_append.mp member with member | member
      · exact told.minor other member
      · rw [List.mem_singleton.mp member]
        simpa using minor

theorem proceeding_isTold :
    Proceeding request (ExportState.IsTold stages) (ExportState.IsFailed stages) where
  said := fun _ _ state told => told.tell _ state.jobs rfl (by simp [Notice.isEnding])
  progressed := fun _ state told => told.tell _ state.jobs rfl (by simp [Notice.isEnding])
  recorded := carries_record_isTold
  failed := fun _ _ fatal told => ⟨fatal, told⟩
  changed := fun _ _ told => ⟨told.errors, told.unended, told.minor, told.entered⟩
  kept := fun _ _ _ _ _ _ told => ⟨told.errors, told.unended, told.minor, told.entered⟩

theorem isFatal_interruption (world : World) :
    (interruption tool request world).isFatal = true := by
  unfold interruption
  split
  · rfl
  · rfl

/-- The work of a stage tells the host of each error that it records, and of no others. -/
theorem carries_workOf_isTold (stage : Stage) :
    Carries (ExportState.IsTold stages) (ExportState.IsFailed stages)
      (await.workOf tool request stage) := by
  apply proceeding_isTold.workOf
  · intro _
    apply meets_waitForQueue
    · exact fun state told _ => told.resumed state.jobs _
    · exact fun state told _ => ⟨isFatal_interruption _, told.resumed state.jobs _⟩
  · intro job _
    apply meets_waited
    · exact fun state told _ => ⟨isFatal_interruption _, told⟩
    · exact fun state told _ _ => told.resumed _ _
    · exact fun state told _ _ => ⟨isFatal_interruption _, told.resumed _ _⟩

/-! ## All stages -/

def ExportState.IsStopped (error : ExportError) (state : ExportState) : Prop :=
  ∃ done stage rest, done ++ stage :: rest = Stage.all ∧ stage ≠ .done ∧
    state.IsFailed (done ++ [stage]) error

theorem meets_stage_isTold {done rest : List Stage} {stage : Stage}
    (same : Stage.all.tail = done ++ stage :: rest) :
    Meets (ExportState.IsTold (.start :: done))
      (enter stage >>= fun _ => await.workOf tool request stage)
      (fun _ => ExportState.IsTold (.start :: (done ++ [stage]))) ExportState.IsStopped := by
  have enters : Meets (ExportState.IsTold (.start :: done)) (enter stage)
      (fun _ => ExportState.IsTold (.start :: (done ++ [stage]))) ExportState.IsStopped := by
    apply Meets.modify
    intro state told
    exact ⟨told.errors, told.unended, told.minor, by rw [told.entered, List.cons_append]⟩
  apply Meets.bind enters
  intro _
  by_cases last : stage = .done
  · subst last
    -- The last stage only tells how far the export has come, so nothing can end it there.
    exact fun state told => told.tell _ state.jobs rfl (by simp [Notice.isEnding])
  · refine (carries_workOf_isTold stage).weaken (fun _ => id) (fun _ _ => id) ?_
    intro error state failed
    exact ⟨.start :: done, stage, rest, by rw [List.cons_append, ← same]; rfl, last, failed⟩

/-- An export that goes through enters all stages in order, and one that is ended has entered them
up to the one that failed. -/
theorem meets_exportStages_isTold :
    Meets (ExportState.IsTold [.start]) (await.exportStages tool request)
      (fun _ => ExportState.IsTold Stage.all) ExportState.IsStopped := by
  have starts : Meets (ExportState.IsTold [.start]) (await.workOf tool request .start)
      (fun _ => ExportState.IsTold [.start]) ExportState.IsStopped :=
    fun state told => told.tell _ state.jobs rfl (by simp [Notice.isEnding])
  apply Meets.bind starts
  intro _
  have each : ∀ done stage rest, Stage.all.tail = done ++ stage :: rest →
      Meets (ExportState.IsTold (.start :: done))
        (enter stage >>= fun _ => await.workOf tool request stage)
        (fun _ => ExportState.IsTold (.start :: (done ++ [stage]))) ExportState.IsStopped :=
    fun done stage rest same => meets_stage_isTold same
  exact Meets.forM each

/-! ## The report -/

def ExportReport.lastNotices (report : ExportReport) : List (Notice Progress) :=
  (report.failure.toList.map fun error => .error error.message) ++
    [if report.isSuccess then .succeeded else .failed]

theorem notices_conclude (report : ExportReport) (state : ExportState) :
    ((conclude request report).run.run state).2.notices = state.notices ++ report.lastNotices := by
  cases failure : report.failure with
  | none =>
      simp only [conclude, ExportReport.lastNotices, failure]
      rfl
  | some error =>
      simp only [conclude, ExportReport.lastNotices, failure]
      exact List.append_assoc state.notices [.error error.message] _

/-- What an export has told its host is what its report says. -/
structure ExportEnd.IsReported (stages : List Stage) (ended : ExportEnd) : Prop where
  inOrder : stages <+: Stage.all
  last : stages.getLast? = some ended.report.stage
  done : ended.report.stage = .done ↔ ended.report.failure = none
  minor : ∀ error ∈ ended.report.warnings, error.isFatal = false
  fatal : ∀ error ∈ ended.report.failure, error.isFatal = true
  errors : errorTexts ended.notices =
    (ended.report.warnings ++ ended.report.failure.toList).map ExportError.message
  ends : ∃ earlier ending, ended.notices = earlier ++ [ending] ∧ ending.isEnding = true ∧
    (ending = .succeeded ↔ ended.report.failure = none ∧ ended.report.warnings = []) ∧
    ∀ notice ∈ earlier, notice.isEnding = false

theorem isEnding_lastNotices (report : ExportReport) :
    ∃ earlier ending, report.lastNotices = earlier ++ [ending] ∧ ending.isEnding = true ∧
      (ending = .succeeded ↔ report.failure = none ∧ report.warnings = []) ∧
      ∀ notice ∈ earlier, notice.isEnding = false := by
  refine ⟨_, _, rfl, ?_, ?_, ?_⟩
  · cases report.isSuccess with
    | true => rfl
    | false => rfl
  · rw [ExportReport.isSuccess, ← Option.isNone_iff_eq_none, ← List.isEmpty_iff]
    cases report.failure.isNone <;> cases report.warnings.isEmpty <;> decide
  · intro notice member
    obtain ⟨error, _, rfl⟩ := List.mem_map.mp member
    rfl

theorem errorTexts_lastNotices (report : ExportReport) :
    errorTexts report.lastNotices = report.failure.toList.map ExportError.message := by
  rw [ExportReport.lastNotices, errorTexts_append]
  cases report.failure <;> cases report.isSuccess <;> rfl

theorem ExportState.IsTold.isReported (told : state.IsTold stages) (workshop : Workshop)
    {result : Except ExportError Unit} {last : Stage} (inOrder : stages <+: Stage.all)
    (ends : stages.getLast? = some last)
    (done : last = .done ↔ (reportOf state result).failure = none)
    (fatal : ∀ error ∈ (reportOf state result).failure, error.isFatal = true) :
    ExportEnd.IsReported stages ⟨reportOf state result, workshop,
      state.notices ++ (reportOf state result).lastNotices⟩ := by
  have stage : (reportOf state result).stage = last := by
    change state.stages.getLast?.getD .start = last
    rw [told.entered, ends, Option.getD_some]
  obtain ⟨earlier, ending, split, isEnding, succeeded, unended⟩ :=
    isEnding_lastNotices (reportOf state result)
  refine ⟨inOrder, by rw [stage, ends], by rw [stage, done], told.minor, fatal, ?_, ?_⟩
  · rw [errorTexts_append, told.errors, errorTexts_lastNotices, List.map_append]
    rfl
  · refine ⟨state.notices ++ earlier, ending, ?_, isEnding, succeeded, ?_⟩
    · rw [split, List.append_assoc]
    · intro notice member
      rcases List.mem_append.mp member with member | member
      · exact told.unended notice member
      · exact unended notice member

theorem isReported_exportGame (await : Awaiting) (tool : ExportTool) (request : ExportRequest)
    (workshop : Workshop) :
    (await.exportGame tool request workshop).IsReported
      ((await.exportStages tool request).run.run
        (.initial workshop request.project)).2.stages := by
  have start : (ExportState.initial workshop request.project).IsTold [.start] :=
    ⟨rfl, nofun, nofun, rfl⟩
  have meets : Meets (ExportState.IsTold [.start]) (await.exportStages tool request)
      (fun _ => ExportState.IsTold Stage.all) ExportState.IsStopped := meets_exportStages_isTold
  have outcome := meets _ start
  unfold Awaiting.exportGame
  generalize (await.exportStages tool request).run.run (.initial workshop request.project) = run
    at outcome ⊢
  rcases run with ⟨result, state⟩
  change ExportEnd.IsReported state.stages ⟨reportOf state result, _,
    ((conclude request (reportOf state result)).run.run state).2.notices⟩
  rw [notices_conclude]
  cases result with
  | ok =>
      have told : state.IsTold Stage.all := outcome
      rw [told.entered]
      exact told.isReported _ List.prefix_rfl rfl (by simp [reportOf]) nofun
  | error error =>
      obtain ⟨done, stage, rest, whole, undone, fatal, told⟩ := outcome
      rw [told.entered]
      apply told.isReported _ ⟨rest, by rw [← whole]; simp⟩ (List.getLast?_concat ..)
      · simp [reportOf, undone]
      · intro other same
        cases same
        exact fatal

/-- Whatever happens during an export, what it tells its host is what its report says, also if
something else than the worker alone decides how its waits end. -/
theorem exportGame_reports (tool : ExportTool) (request : ExportRequest) (workshop : Workshop) :
    (exportGame tool request workshop).IsReported
      ((exportStages tool request).run.run (.initial workshop request.project)).2.stages ∧
    ∀ await : Awaiting, (await.exportGame tool request workshop).IsReported
      ((await.exportStages tool request).run.run (.initial workshop request.project)).2.stages := by
  refine ⟨?_, fun await => isReported_exportGame await tool request workshop⟩
  rw [← exportGame_awaited, ← exportStages_awaited]
  exact isReported_exportGame _ tool request workshop

end GameExport
