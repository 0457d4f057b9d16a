import GameExport.Proofs.Export.Reporting
import Mathlib

/-! # How far an export says it has come

Percentages are told by two loops, each in its own share, and at fixed places in between; everything
else that an export does tells none. Main statement: the percentages that a host is told start at
zero and only go up, and they reach a hundred, at last, exactly if the export goes through.
-/

namespace GameExport

open ExportM

def exactPercents (notices : List (Notice Progress)) : List Rat :=
  notices.filterMap fun
    | .progress value => some value.exact
    | _ => none

@[simp] theorem exactPercents_append (first second : List (Notice Progress)) :
    exactPercents (first ++ second) = exactPercents first ++ exactPercents second :=
  List.filterMap_append

@[simp] theorem exactPercents_idle (moments : Nat) :
    exactPercents (List.replicate moments .idle) = [] := by
  rw [exactPercents, List.filterMap_replicate_of_none rfl]

theorem exactPercents_lastNotices (report : ExportReport) :
    exactPercents report.lastNotices = [] := by
  rw [ExportReport.lastNotices, exactPercents_append]
  cases report.failure <;> cases report.isSuccess <;> rfl

/-! ## What tells no percentage -/

def ExportState.percents (state : ExportState) : List Rat := exactPercents state.notices

abbrev IsSilent {α : Type} (part : ExportM α) : Prop := Keeps ExportState.percents part

theorem isSilent_tell {request : ExportRequest} {notice : Notice Progress}
    (silent : exactPercents [notice] = []) : IsSilent (tell request notice) := by
  intro state
  change exactPercents (state.notices ++ [notice]) = exactPercents state.notices
  rw [exactPercents_append, silent, List.append_nil]

section Silent

variable (tool : ExportTool) (request : ExportRequest) (await : Awaiting)

theorem isSilent_say (text : String) (detail : Option String) :
    IsSilent (say request text detail) :=
  isSilent_tell rfl

theorem isSilent_record (error : ExportError) : IsSilent (record request error) := by
  unfold record
  split
  · exact .throw _
  · exact Keeps.bind (isSilent_tell rfl) fun _ => .modify fun _ => rfl

theorem isSilent_attempt {ε : Type} (change : FileTree → Except ε FileTree)
    (blame : ε → ExportError) : IsSilent (attempt request change blame) := by
  unfold attempt
  refine .bind .get fun state => ?_
  split
  · exact .modify fun _ => rfl
  · exact isSilent_record request _

theorem isSilent_changingFiles {ε α : Type} (change : FileTree → FileTree × Except ε α) :
    IsSilent (changingFiles change) :=
  .bind .get fun _ => .bind (.modify fun _ => rfl) fun _ => .pure _

theorem isSilent_resume (ended : Workshop.WaitEnd) : IsSilent (resume tool request ended) := by
  have resumes (state : ExportState) : (state.resumed ended).percents = state.percents := by
    change exactPercents (state.notices ++ List.replicate ended.moments .idle) = _
    rw [exactPercents_append, exactPercents_idle, List.append_nil]
    rfl
  refine .bind (.modify resumes) fun _ => ?_
  split
  · exact .pure _
  · exact .throw _

theorem isSilent_waitForQueue : IsSilent (await.waitForQueue tool request) :=
  .bind .get fun _ => isSilent_resume tool request _

theorem isSilent_submitAndWait (job : Job) : IsSilent (await.submitAndWait tool request job) := by
  have submits (ended : Workshop.WaitEnd) : IsSilent (do
      modify fun state => { state with jobs := state.jobs ++ [⟨job, ended⟩] }
      resume tool request ended) :=
    .bind (.modify fun _ => rfl) fun _ => isSilent_resume tool request _
  refine .bind .get fun state => ?_
  dsimp only
  split
  · exact .bind (.throw _) fun _ => submits _
  · exact submits _

theorem isSilent_emptyWorkingDirectory : IsSilent (emptyWorkingDirectory tool request) := by
  refine .bind (isSilent_changingFiles _) fun created => ?_
  cases created with
  | error cause => exact isSilent_record request _
  | ok =>
      refine .bind .get fun state => ?_
      dsimp only
      split
      · exact isSilent_record request _
      · exact .forM fun entry => isSilent_attempt request _ _

theorem isSilent_makeGenerated : IsSilent (makeGenerated tool request) := by
  refine .bind (isSilent_changingFiles _) fun created => ?_
  cases created with
  | error cause => exact isSilent_record request _
  | ok => exact .pure _

theorem isSilent_takeObject (files : UnitFiles) : IsSilent (takeObject files) := by
  intro state
  unfold takeObject
  rw [run_bind]
  change ((if state.files.pathExists files.object = true then _ else _ : ExportM Unit).run.run
    state).2.percents = _
  split
  · rfl
  · rfl

theorem isSilent_requirementsOf (analysis : InclusionAnalysis) (unit : UnitName) :
    IsSilent (requirementsOf analysis unit) := by
  unfold requirementsOf
  split
  · exact .pure _
  · exact .throw _

theorem isSilent_compileEvents (project : Project) (compiled : NameSet) (unit : UnitName) :
    IsSilent (await.compileEvents tool request project compiled unit) :=
  .bind (isSilent_submitAndWait tool request await _) fun _ => isSilent_takeObject _

theorem isSilent_compileSource (name : String) :
    IsSilent (await.compileSource tool request name) := by
  refine .bind .get fun state => ?_
  dsimp only
  split
  · exact .pure _
  · exact .bind (isSilent_say request _ _) fun _ =>
      .bind (isSilent_submitAndWait tool request await _) fun _ => isSilent_takeObject _

theorem isSilent_compileNewSources (names : NameSet) :
    IsSilent (await.compileNewSources tool request names) := by
  refine .forM fun name => .bind .get fun state => ?_
  split
  · exact .pure _
  · exact .bind (.modify fun _ => rfl) fun _ => isSilent_compileSource tool request await name

theorem isSilent_removeWorkingFile (name : String) :
    IsSilent (removeWorkingFile tool request name) :=
  isSilent_attempt request _ _

theorem isSilent_packWorkingFiles : IsSilent (packWorkingFiles tool request) := by
  unfold packWorkingFiles
  refine .bind .get fun state => ?_
  split
  · exact .throw _
  · refine .bind (isSilent_changingFiles _) fun packed => ?_
    cases packed with
    | error cause => exact .throw _
    | ok => exact .forM fun name => isSilent_removeWorkingFile tool request name

theorem isSilent_checkLibrary (job : Job) : IsSilent (checkLibrary job) := by
  refine .bind .get fun state => ?_
  split
  · exact .pure _
  · exact .bind .get fun _ => .throw _

theorem isSilent_exportFile (name : String) : IsSilent (exportFile tool request name) := by
  unfold exportFile
  refine .bind .get fun state => ?_
  split
  · exact .bind (.modify fun _ => rfl) fun _ => .modify fun _ => rfl
  · exact isSilent_record request _

theorem isSilent_packageVerbatim : IsSilent (packageVerbatim tool request) := by
  unfold packageVerbatim
  refine .bind .get fun state => ?_
  split
  · exact .throw _
  · exact .forM fun name => isSilent_exportFile tool request name

theorem isSilent_joinExecutable : IsSilent (joinExecutable tool request) := by
  refine .bind .get fun state => ?_
  dsimp only
  refine .bind (isSilent_changingFiles _) fun joined => ?_
  cases joined with
  | error cause => exact isSilent_record request _
  | ok skipped =>
      exact .bind (.modify fun _ => rfl) fun _ => .forM fun _ => isSilent_record request _

theorem isSilent_packageCompressed : IsSilent (packageCompressed tool request) := by
  refine .bind (isSilent_say request _ _) fun _ => .bind (isSilent_changingFiles _) fun made => ?_
  cases made with
  | error cause =>
      exact .bind (isSilent_record request _) fun _ => isSilent_joinExecutable tool request
  | ok => exact isSilent_joinExecutable tool request

theorem isSilent_package : IsSilent (package tool request) := by
  have fills : IsSilent (
      if request.options.isCompressed then packageCompressed tool request
      else packageVerbatim tool request) := by
    split
    · exact isSilent_packageCompressed tool request
    · exact isSilent_packageVerbatim tool request
  refine .bind (isSilent_changingFiles _) fun created => ?_
  cases created with
  | error cause => exact .bind (isSilent_record request _) fun _ => fills
  | ok => exact fills

end Silent

/-! ## Percentages go up -/

/-- The percentages so far start at zero, go up, and none is beyond a bound. -/
structure ExportState.IsUpTo (top : Rat) (state : ExportState) : Prop where
  starts : state.percents.head? = some 0
  rises : state.percents.Pairwise (· < ·)
  within : ∀ percent ∈ state.percents, percent ≤ top

def ExportState.IsShort (state : ExportState) : Prop := ∃ top < 100, state.IsUpTo top

variable {tool : ExportTool} {request : ExportRequest} {await : Awaiting} {top next : Rat}

theorem ExportState.IsUpTo.mono {state : ExportState} (upTo : state.IsUpTo top)
    (higher : top ≤ next) : state.IsUpTo next :=
  ⟨upTo.starts, upTo.rises, fun percent member => (upTo.within percent member).trans higher⟩

theorem ExportState.IsUpTo.congr {state other : ExportState} (upTo : state.IsUpTo top)
    (same : other.percents = state.percents) : other.IsUpTo top :=
  ⟨same ▸ upTo.starts, same ▸ upTo.rises, same ▸ upTo.within⟩

theorem ExportState.IsUpTo.progress {state other : ExportState} {percent : Rat}
    (upTo : state.IsUpTo top) (higher : top < percent)
    (told : other.percents = state.percents ++ [percent]) : other.IsUpTo percent where
  starts := by rw [told, List.head?_append, upTo.starts, Option.some_or]
  rises := by
    rw [told, List.pairwise_append]
    refine ⟨upTo.rises, List.pairwise_singleton _ _, fun earlier member later last => ?_⟩
    rw [List.mem_singleton.mp last]
    exact (upTo.within earlier member).trans_lt higher
  within := by
    rw [told]
    intro other member
    rcases List.mem_append.mp member with earlier | last
    · exact ((upTo.within other earlier).trans_lt higher).le
    · exact (List.mem_singleton.mp last).le

/-- A part of an export brings the percentages from one bound to the next. -/
abbrev Advances {α : Type} (low high : Rat) (part : ExportM α) : Prop :=
  Meets (ExportState.IsUpTo low) part (fun _ => ExportState.IsUpTo high)
    fun _ => ExportState.IsShort

theorem advances_of_silent {α : Type} {part : ExportM α} (silent : IsSilent part)
    (short : top < 100) : Advances top top part := by
  intro state upTo
  have same := silent state
  generalize part.run.run state = outcome at same ⊢
  rcases outcome with ⟨result, state⟩
  cases result with
  | error error => exact ⟨top, short, upTo.congr same⟩
  | ok value => exact upTo.congr same

theorem advances_progress {value : Progress} (higher : top < value.exact) :
    Advances top value.exact (progress request value) :=
  fun state upTo => upTo.progress higher (exactPercents_append state.notices [.progress value])

/-! ## Shares of the whole -/

theorem exact_scenes_lt {done total : Nat} (inside : done < total) :
    (Progress.scenes done total).exact < (Progress.scenes (done + 1) total).exact := by
  have positive : (0 : Rat) < total := by exact_mod_cast Nat.zero_lt_of_lt inside
  have next : (done : Rat) / total < ((done + 1 : Nat) : Rat) / total := by
    rw [div_lt_div_iff_of_pos_right positive]
    exact_mod_cast Nat.lt_succ_self done
  change (done : Rat) / total * 50 < ((done + 1 : Nat) : Rat) / total * 50
  linarith

theorem exact_scenes_le {done total : Nat} (inside : done ≤ total) :
    (Progress.scenes done total).exact ≤ 50 := by
  have whole : (done : Rat) / total ≤ 1 :=
    div_le_one_of_le₀ (by exact_mod_cast inside) (Nat.cast_nonneg total)
  change (done : Rat) / total * 50 ≤ 50
  linarith

theorem exact_resources (done total : Nat) :
    (Progress.resources done total).exact = 50 + (Progress.scenes done total).exact / 2 := by
  change 50 + (done : Rat) / total * 25 = 50 + (done : Rat) / total * 50 / 2
  ring

theorem place_of_zipIdx {α : Type} {items : List α} {done rest : List (α × Nat)} {item : α × Nat}
    (same : items.zipIdx 1 = done ++ item :: rest) :
    item.2 = done.length + 1 ∧ done.length < items.length := by
  have here := congrArg (·[done.length]?) same
  simp only [List.getElem?_zipIdx, List.getElem?_append_right le_rfl, Nat.sub_self,
    List.getElem?_cons_zero, Option.map_eq_some_iff] at here
  rcases here with ⟨value, found, rfl⟩
  exact ⟨Nat.add_comm _ _, (List.getElem?_eq_some_iff.mp found).1⟩

theorem advances_numbered {α : Type} {items : List α} {work : α × Nat → ExportM Unit}
    (share : Nat → Rat) (each : ∀ done < items.length, ∀ item,
      Advances (share done) (share (done + 1)) (work (item, done + 1))) :
    Advances (share 0) (share items.length) ((items.zipIdx 1).forM work) := by
  have numbered : ∀ done member rest, items.zipIdx 1 = done ++ member :: rest →
      Advances (share done.length) (share (done ++ [member]).length) (work member) := by
    rintro done ⟨item, place⟩ rest same
    rcases place_of_zipIdx same with ⟨isPlace, inside⟩
    obtain rfl : place = done.length + 1 := isPlace
    rw [List.length_append, List.length_singleton]
    exact each done.length inside item
  have loop := Meets.forM numbered
  rwa [List.length_nil, List.length_zipIdx] at loop

/-! ## Stages -/

def ExportState.IsUntold (state : ExportState) : Prop := state.percents = []

theorem ExportState.isUpTo_zero {state : ExportState} (told : state.percents = [0]) :
    state.IsUpTo 0 where
  starts := by
    rw [told]
    rfl
  rises := by
    rw [told]
    exact List.pairwise_singleton _ _
  within := by
    rw [told]
    exact fun percent member => (List.mem_singleton.mp member).le

theorem advances_validateTargets :
    Meets ExportState.IsUntold (validateTargets request) (fun _ => ExportState.IsUpTo 0)
      fun _ => ExportState.IsShort := by
  have begins : Meets ExportState.IsUntold (progress request (.percent 0))
      (fun _ => ExportState.IsUpTo 0) fun _ => ExportState.IsShort := by
    intro state untold
    have told : exactPercents (state.notices ++ [.progress (.percent 0)]) = [0] := by
      rw [exactPercents_append, show exactPercents state.notices = [] from untold]
      rfl
    exact ExportState.isUpTo_zero told
  have checks : IsSilent (if request.options.targets.isEmpty then throw .noTarget
      else pure () : ExportM Unit) := by
    split
    · exact .throw _
    · exact .pure _
  apply Meets.bind begins
  intro _
  exact advances_of_silent checks (by norm_num)

theorem advances_renameResources : Advances 0 0 (Awaiting.renameResources request) := by
  have short : (0 : Rat) < 100 := by norm_num
  apply meets_get_bind
  intro start upTo
  apply Meets.start _ upTo
  have exposes (path : String) : Advances 0 0 (exposeFile start.project.baseDirectory path) :=
    advances_of_silent (fun _ => rfl) short
  have tells (name : String) : Advances 0 0 (say request preparingMessage (some name)) :=
    advances_of_silent (isSilent_say request _ _) short
  apply Meets.bind (carries_renameFiles exposes tells start.project)
  intro renamed
  exact advances_of_silent (.modify fun _ => rfl) short

theorem advances_prepareResources : Advances 0 0 (await.prepareResources tool request) := by
  have short : (0 : Rat) < 100 := by norm_num
  have rest : Advances 0 0 (do
      emptyWorkingDirectory tool request
      say request preparingMessage none
      Awaiting.renameResources request) := by
    apply Meets.bind (advances_of_silent (isSilent_emptyWorkingDirectory tool request) short)
    intro _
    apply Meets.bind (advances_of_silent (isSilent_say request _ _) short)
    intro _
    exact advances_renameResources
  unfold Awaiting.prepareResources
  apply meets_get_bind
  intro start upTo
  apply Meets.start _ upTo
  split
  · apply Meets.bind (advances_of_silent (isSilent_say request _ _) short)
    intro _
    apply Meets.bind (advances_of_silent (isSilent_waitForQueue tool request await) short)
    intro _
    exact rest
  · exact rest

theorem advances_compileScene {project : Project} {analysis : InclusionAnalysis}
    {own : List (String × String)} {done total : Nat} (inside : done < total) (name : String) :
    Advances (Progress.scenes done total).exact (Progress.scenes (done + 1) total).exact
      (await.compileScene tool request project analysis own total (name, done + 1)) := by
  have short : (Progress.scenes done total).exact < 100 :=
    (exact_scenes_le inside.le).trans_lt (by norm_num)
  have events (unit : UnitName) := isSilent_compileEvents tool request await project
    (.ofList (own.map (·.1))) unit
  apply Meets.bind (advances_of_silent (isSilent_requirementsOf _ _) short)
  intro requirements
  apply Meets.bind (advances_of_silent (isSilent_say request _ _) short)
  intro _
  apply Meets.bind (advances_of_silent (isSilent_compileNewSources tool request await _) short)
  intro _
  apply Meets.bind (advances_of_silent (.forM fun sheet => events (.externalEvents sheet)) short)
  intro _
  apply Meets.bind (advances_of_silent (events (.scene name)) short)
  intro _
  apply Meets.bind (advances_of_silent (isSilent_say request _ _) short)
  intro _
  exact advances_progress (exact_scenes_lt inside)

theorem advances_compileScenes {project : Project} {analysis : InclusionAnalysis}
    {own : List (String × String)} (names : List String) :
    Advances 0 50 ((names.zipIdx 1).forM
      (await.compileScene tool request project analysis own names.length)) := by
  have loop : Advances (Progress.scenes 0 names.length).exact
      (Progress.scenes names.length names.length).exact
      ((names.zipIdx 1).forM
        (await.compileScene tool request project analysis own names.length)) :=
    advances_numbered (fun done => (Progress.scenes done names.length).exact)
      fun _ inside name => advances_compileScene inside name
  have start : (Progress.scenes 0 names.length).exact = 0 := by simp [Progress.exact]
  exact loop.weaken (fun _ upTo => start.symm ▸ upTo)
    (fun _ _ upTo => upTo.mono (exact_scenes_le le_rfl)) fun _ _ => id

theorem advances_compileUnits : Advances 0 50 (await.compileUnits tool request) := by
  have opens : IsSilent (openGenerated tool request) :=
    .bind (.modify fun _ => rfl) fun _ => isSilent_makeGenerated tool request
  have sheets (project : Project) : IsSilent (project.externalEvents.forM fun sheet => do
      let requirements ← requirementsOf project.inclusionAnalysis (.externalEvents sheet.name)
      await.compileNewSources tool request requirements.sourceFiles) :=
    .forM fun sheet => .bind (isSilent_requirementsOf _ _) fun _ =>
      isSilent_compileNewSources tool request await _
  apply Meets.bind (advances_of_silent opens (by norm_num))
  intro _
  apply meets_get_bind
  intro start upTo
  apply Meets.start _ upTo
  apply Meets.bind (advances_compileScenes _)
  intro _
  exact advances_of_silent (sheets start.project) (by norm_num)

theorem exact_resources_le {done total : Nat} (inside : done ≤ total) :
    (Progress.resources done total).exact ≤ 75 := by
  have share := exact_scenes_le inside
  rw [exact_resources]
  linarith

theorem advances_copyResource {done total : Nat} (inside : done < total) (entry : Path × String) :
    Advances (Progress.resources done total).exact (Progress.resources (done + 1) total).exact
      (copyResource tool request total (entry, done + 1)) := by
  have short : (Progress.resources done total).exact < 100 :=
    (exact_resources_le inside.le).trans_lt (by norm_num)
  have higher : (Progress.resources done total).exact <
      (Progress.resources (done + 1) total).exact := by
    have share := exact_scenes_lt inside
    rw [exact_resources, exact_resources]
    linarith
  apply Meets.bind (advances_of_silent (isSilent_say request _ _) short)
  intro _
  apply Meets.bind (advances_of_silent (isSilent_attempt request _ _) short)
  intro _
  exact advances_progress higher

theorem advances_copyEntries (entries : List (Path × String)) :
    Advances 50 75 ((entries.zipIdx 1).forM (copyResource tool request entries.length)) := by
  have loop : Advances (Progress.resources 0 entries.length).exact
      (Progress.resources entries.length entries.length).exact
      ((entries.zipIdx 1).forM (copyResource tool request entries.length)) :=
    advances_numbered (fun done => (Progress.resources done entries.length).exact)
      fun _ inside entry => advances_copyResource inside entry
  have start : (Progress.resources 0 entries.length).exact = 50 := by simp [Progress.exact]
  exact loop.weaken (fun _ upTo => start.symm ▸ upTo)
    (fun _ _ upTo => upTo.mono (exact_resources_le le_rfl)) fun _ _ => id

theorem advances_copyResources : Advances 50 75 (copyResources tool request) := by
  apply Meets.bind (advances_of_silent (isSilent_say request _ _) (by norm_num))
  intro _
  apply meets_get_bind
  intro start upTo
  exact (advances_copyEntries _).start upTo

theorem advances_writeDescriptor : Advances 75 85 (writeDescriptor tool request) := by
  have first : Advances 75 80 (progress request (.percent 80)) :=
    advances_progress (by norm_num [Progress.exact])
  have second : Advances 80 85 (progress request (.percent 85)) :=
    advances_progress (by norm_num [Progress.exact])
  apply Meets.bind (advances_of_silent (isSilent_say request _ _) (by norm_num))
  intro _
  apply meets_get_bind
  intro start upTo
  apply Meets.start _ upTo
  apply Meets.bind (advances_of_silent (isSilent_attempt request _ _) (by norm_num))
  intro _
  apply Meets.bind first
  intro _
  apply Meets.bind (advances_of_silent (isSilent_say request _ _) (by norm_num))
  intro _
  apply Meets.bind (advances_of_silent (isSilent_attempt request _ _) (by norm_num))
  intro _
  apply Meets.bind (advances_of_silent (isSilent_removeWorkingFile tool request _) (by norm_num))
  intro _
  exact second

theorem advances_stripAndEncrypt : Advances 75 85 (stripAndEncrypt tool request) := by
  apply Meets.bind advances_writeDescriptor
  intro _
  apply Meets.bind (advances_of_silent (isSilent_say request _ _) (by norm_num))
  intro _
  exact advances_of_silent (isSilent_packWorkingFiles tool request) (by norm_num)

theorem advances_link : Advances 85 90 (await.link tool request) := by
  have short : (85 : Rat) < 100 := by norm_num
  have told : Advances 85 90 (progress request (.percent 90)) :=
    advances_progress (by norm_num [Progress.exact])
  have makes (job : Job) : IsSilent (await.submitAndWait tool request job >>= fun _ =>
      checkLibrary job) :=
    .bind (isSilent_submitAndWait tool request await _) fun _ => isSilent_checkLibrary _
  rw [Awaiting.link_eq]
  apply Meets.bind (advances_of_silent (isSilent_say request _ _) short)
  intro _
  apply meets_get_bind
  intro start upTo
  apply Meets.start _ upTo
  apply Meets.bind (advances_of_silent (makes _) short)
  intro _
  apply Meets.bind (advances_of_silent (isSilent_say request _ _) short)
  intro _
  exact told

theorem advances_copyPlatformFiles : Advances 90 95 (copyPlatformFiles tool request) := by
  have short : (90 : Rat) < 100 := by norm_num
  have told : Advances 90 95 (progress request (.percent 95)) :=
    advances_progress (by norm_num [Progress.exact])
  have copies : Advances 90 95 (do
      (platformFiles tool request.options (← get).project).forM (copyPlatformFile tool request)
      progress request (.percent 95)) := by
    apply meets_get_bind
    intro start upTo
    apply Meets.start _ upTo
    apply Meets.bind (advances_of_silent (.forM fun _ => isSilent_attempt request _ _) short)
    intro _
    exact told
  unfold copyPlatformFiles
  apply Meets.bind (advances_of_silent (isSilent_say request _ _) short)
  intro _
  dsimp only
  split
  · apply Meets.bind (advances_of_silent (isSilent_say request _ _) short)
    intro _
    exact copies
  · exact copies

/-! ## All stages -/

def ExportState.IsAtEnd (state : ExportState) : Prop :=
  state.IsUpTo 100 ∧ state.percents.getLast? = some 100

theorem meets_done :
    Meets (ExportState.IsUpTo 95) (progress request (.percent 100))
      (fun _ => ExportState.IsAtEnd) fun _ => ExportState.IsShort := by
  intro state upTo
  have told : exactPercents (state.notices ++ [.progress (.percent 100)]) =
      state.percents ++ [100] := exactPercents_append _ _
  refine ⟨upTo.progress (by norm_num) told, ?_⟩
  change (exactPercents (state.notices ++ [.progress (.percent 100)])).getLast? = some 100
  rw [told, List.getLast?_concat]

section Stages

variable {before between after : ExportState → Prop} {stage : Stage} {stages : List Stage}

theorem meets_goThrough_cons
    (entered : ∀ state stages, before state → before { state with stages := stages })
    (works : Meets before (await.workOf tool request stage) (fun _ => between)
      fun _ => ExportState.IsShort)
    (rest : Meets between (await.goThrough tool request stages) (fun _ => after)
      fun _ => ExportState.IsShort) :
    Meets before (await.goThrough tool request (stage :: stages)) (fun _ => after)
      fun _ => ExportState.IsShort := by
  have enters : Meets before (enter stage) (fun _ => before) fun _ => ExportState.IsShort :=
    fun state held => entered state _ held
  have step : Meets before (enter stage >>= fun _ => await.workOf tool request stage)
      (fun _ => between) fun _ => ExportState.IsShort := by
    apply Meets.bind enters
    intro _
    exact works
  apply Meets.bind step
  intro _
  exact rest

theorem Advances.followed {low high : Rat}
    (works : Advances low high (await.workOf tool request stage))
    (rest : Meets (ExportState.IsUpTo high) (await.goThrough tool request stages) (fun _ => after)
      fun _ => ExportState.IsShort) :
    Meets (ExportState.IsUpTo low) (await.goThrough tool request (stage :: stages)) (fun _ => after)
      fun _ => ExportState.IsShort :=
  meets_goThrough_cons (fun _ _ upTo => ⟨upTo.starts, upTo.rises, upTo.within⟩) works rest

end Stages

/-- The percentages of an export only go up, to a hundred if it goes through. -/
theorem meets_exportStages_isAtEnd :
    Meets ExportState.IsUntold (await.exportStages tool request) (fun _ => ExportState.IsAtEnd)
      fun _ => ExportState.IsShort := by
  have starts : Meets ExportState.IsUntold (await.workOf tool request .start)
      (fun _ => ExportState.IsUntold) fun _ => ExportState.IsShort :=
    fun state untold => (isSilent_say request _ _ state).trans untold
  have packages : Advances 95 95 (package tool request) :=
    advances_of_silent (isSilent_package tool request) (by norm_num)
  have ends : Meets (ExportState.IsUpTo 95) (await.goThrough tool request [.done])
      (fun _ => ExportState.IsAtEnd) fun _ => ExportState.IsShort :=
    meets_goThrough_cons (fun _ _ upTo => ⟨upTo.starts, upTo.rises, upTo.within⟩) meets_done
      (Meets.pure fun _ => id)
  have compiles : Meets (ExportState.IsUpTo 0) (await.goThrough tool request [.prepareResources,
      .compileUnits, .copyResources, .stripAndEncrypt, .link, .copyPlatformFiles, .package, .done])
      (fun _ => ExportState.IsAtEnd) fun _ => ExportState.IsShort := by
    apply Advances.followed advances_prepareResources
    apply Advances.followed advances_compileUnits
    apply Advances.followed advances_copyResources
    apply Advances.followed advances_stripAndEncrypt
    apply Advances.followed advances_link
    apply Advances.followed advances_copyPlatformFiles
    apply Advances.followed packages
    exact ends
  apply Meets.bind starts
  intro _
  exact meets_goThrough_cons (fun _ _ => id) advances_validateTargets compiles

/-! ## What the host is told -/

/-- The percentages that the host of an export is told start at zero and go up, within a hundred,
which they reach at last exactly if the export goes through. -/
structure ExportEnd.IsRising (ended : ExportEnd) : Prop where
  starts : (exactPercents ended.notices).head? = some 0
  rises : (exactPercents ended.notices).Pairwise (· < ·)
  within : ∀ percent ∈ exactPercents ended.notices, 0 ≤ percent ∧ percent ≤ 100
  done : 100 ∈ exactPercents ended.notices ↔ ended.report.failure = none
  last : ended.report.failure = none → (exactPercents ended.notices).getLast? = some 100

theorem ExportState.IsUpTo.nonneg {state : ExportState} (upTo : state.IsUpTo top) :
    ∀ percent ∈ state.percents, 0 ≤ percent := by
  have starts := upTo.starts
  have rises := upTo.rises
  cases told : state.percents with
  | nil => nofun
  | cons first rest =>
      rw [told, List.head?_cons, Option.some.injEq] at starts
      rw [told, starts, List.pairwise_cons] at rises
      intro percent member
      rcases List.mem_cons.mp member with isFirst | later
      · exact (isFirst.trans starts).ge
      · exact (rises.1 percent later).le

theorem isRising_exportGame (await : Awaiting) (tool : ExportTool) (request : ExportRequest)
    (workshop : Workshop) : (await.exportGame tool request workshop).IsRising := by
  have meets : Meets ExportState.IsUntold (await.exportStages tool request)
      (fun _ => ExportState.IsAtEnd) fun _ => ExportState.IsShort := meets_exportStages_isAtEnd
  have outcome := meets (.initial workshop request.project) rfl
  unfold Awaiting.exportGame
  generalize (await.exportStages tool request).run.run (.initial workshop request.project) = run
    at outcome ⊢
  rcases run with ⟨result, state⟩
  have told : exactPercents
      ((conclude request (reportOf state result)).run.run state).2.notices = state.percents := by
    rw [notices_conclude, exactPercents_append, exactPercents_lastNotices, List.append_nil]
    rfl
  cases result with
  | ok =>
      rcases (outcome : state.IsAtEnd) with ⟨upTo, last⟩
      constructor
      · exact told ▸ upTo.starts
      · exact told ▸ upTo.rises
      · exact told ▸ fun percent member => ⟨upTo.nonneg percent member, upTo.within percent member⟩
      · exact told ▸ iff_of_true (List.mem_of_getLast? last) rfl
      · exact fun _ => told ▸ last
  | error error =>
      rcases (outcome : state.IsShort) with ⟨top, short, upTo⟩
      constructor
      · exact told ▸ upTo.starts
      · exact told ▸ upTo.rises
      · exact told ▸ fun percent member =>
          ⟨upTo.nonneg percent member, (upTo.within percent member).trans short.le⟩
      · exact told ▸ iff_of_false (fun member => (upTo.within 100 member).not_gt short) nofun
      · exact nofun

/-- Whatever happens during an export, the percentages that it tells its host go up from zero, and
up to a hundred exactly if it goes through, also if something else than the worker alone decides
how its waits end. -/
theorem exportGame_rises (tool : ExportTool) (request : ExportRequest) (workshop : Workshop) :
    (exportGame tool request workshop).IsRising ∧
      ∀ await : Awaiting, (await.exportGame tool request workshop).IsRising := by
  refine ⟨?_, fun await => isRising_exportGame await tool request workshop⟩
  rw [← exportGame_awaited]
  exact isRising_exportGame _ tool request workshop

end GameExport
