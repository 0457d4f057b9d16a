import GameExport.Proofs.Export.Compiling

/-! # When an export links

Main statement: if an export submits the job that links, then it is the last one, there is a
target, no inclusions go round in a circle, the container has been packed, and before that every
unit to be linked has been compiled into the object that the link is given; in every other case
the export submits no such job and fails.
-/

namespace GameExport

open ExportM

variable (tool : ExportTool) (request : ExportRequest)

def untilPacking : ExportM Unit := do
  workOf tool request .start
  goThrough tool request [.validateTargets, .prepareResources, .compileUnits, .copyResources]
  enter .stripAndEncrypt
  writeDescriptor tool request
  say request copyingMessage (some "Step 3 out of 3")

def afterPacking : ExportM Unit :=
  goThrough tool request [.link, .copyPlatformFiles, .package, .done]

theorem exportStages_eq :
    exportStages tool request = (do
      untilPacking tool request
      packWorkingFiles tool request
      afterPacking tool request) := by
  unfold exportStages untilPacking afterPacking goThrough
  simp only [Stage.all, List.tail_cons, List.forM_eq_forM, List.forM_cons, List.forM_nil, workOf,
    stripAndEncrypt, bind_assoc, pure_bind]

def PacksContainer (packing : ExportState) : Prop :=
  ∃ names files, Package.listFiles packing.files tool.workingDirectory = .ok names ∧
    tool.pack packing.files names tool.workingDirectory
      (tool.workingDirectory.child containerName) = (files, .ok ())

/-- The last job of an export that has ended in a state is the one that links, and before it all
that it needs has been done. `packing` is the state in which the container was packed. -/
structure LinksLast (workshop : Workshop) (state packing : ExportState) (record : SubmittedJob) :
    Prop where
  links : record.job.call.kind = .link
  jobs : state.jobs = packing.jobs ++ [record]
  target : request.options.targets.isEmpty = false
  acyclic : ∀ unit events, request.project.HasEvents unit events → ¬ request.project.OnCycle unit
  reached : (untilPacking tool request).run.run (.initial workshop request.project) =
    (.ok (), packing)
  packs : PacksContainer tool packing
  compiles : ∀ earlier ∈ packing.jobs,
    ∃ unit, request.project.Linked unit ∧ earlier.Made tool request unit
  compiled : ∀ unit, request.project.Linked unit →
    ∃ earlier ∈ packing.jobs, earlier.Made tool request unit
  objects : ∀ path, path ∈ record.job.call.objects ↔
    ∃ unit, request.project.Linked unit ∧
      path = UnitFiles.objectPath unit tool.settings.generatedDirectory

variable {tool request}

/-! ## Up to the container -/

theorem keepsCompilation_enter (stage : Stage) : Keeps ExportState.compilation (enter stage) :=
  .modify fun _ => rfl

theorem meets_stage {property : Compilation → Prop} {stage : Stage}
    {after : Unit → ExportState → Prop} {ended : ExportError → ExportState → Prop}
    (work : Meets (fun state => property state.compilation) (workOf tool request stage) after
      ended) :
    Meets (fun state => property state.compilation)
      (do
        enter stage
        workOf tool request stage) after ended := by
  intro state holds
  rw [run_bind]
  exact work _ holds

def Compilation.IsReady (tool : ExportTool) (request : ExportRequest) (compilation : Compilation) :
    Prop :=
  compilation.IsMade tool request request.project.Linked ∧ request.project.IsAcyclic ∧
    request.options.targets.isEmpty = false

theorem ready_of_keeps {α : Type} {part : ExportM α}
    (keeps : Keeps ExportState.compilation part) :
    Meets (fun state => state.compilation.IsReady tool request) part
      (fun _ state => state.compilation.IsReady tool request) fun _ state => state.OnlyCompiles :=
  keeps.meets (Compilation.IsReady tool request)
    fun _ _ ready => ready.1.onlyCompiles

def Compilation.IsStart (request : ExportRequest) (compilation : Compilation) : Prop :=
  compilation.IsFresh request ∧ compilation.queue.Balanced

theorem onlyCompiles_of_jobs {state : ExportState} (nothing : state.jobs = []) :
    state.OnlyCompiles := by
  intro record member
  rw [nothing] at member
  cases member

theorem start_of_keeps {α : Type} {part : ExportM α} (keeps : Keeps ExportState.core part) :
    Meets (fun state => state.compilation.IsStart request) part
      (fun _ state => state.compilation.IsStart request) fun _ state => state.OnlyCompiles :=
  (keepsCompilation_of_core keeps).meets (Compilation.IsStart request)
    fun _ _ start => onlyCompiles_of_jobs start.1.jobs

theorem meets_validateTargets :
    Meets (fun state => state.compilation.IsStart request) (validateTargets request)
      (fun _ state => state.compilation.IsStart request ∧ request.options.targets.isEmpty = false)
      fun _ state => state.OnlyCompiles := by
  apply Meets.bind (start_of_keeps (keeps_progress request _))
  intro _
  cases target : request.options.targets.isEmpty with
  | true =>
      apply Meets.throw
      intro state start
      exact onlyCompiles_of_jobs start.1.jobs
  | false =>
      apply Meets.pure
      intro state start
      exact ⟨start, rfl⟩

theorem meets_firstStages :
    Meets (fun state => state.compilation.IsStart request)
      (goThrough tool request [.validateTargets, .prepareResources, .compileUnits, .copyResources])
      (fun _ state => state.compilation.IsReady tool request)
      fun _ state => state.OnlyCompiles := by
  have prepares : Meets (fun state => state.compilation.IsStart request)
      (prepareResources tool request) (fun _ state => state.compilation.IsPrepared request)
      fun _ state => state.OnlyCompiles :=
    (meets_prepareResources tool request).weaken (fun _ => id) (fun _ _ => id)
      fun _ _ => onlyCompiles_of_jobs
  apply Meets.bind (meets_stage meets_validateTargets)
  intro _
  apply Meets.of_start
  intro start holds
  rcases holds with ⟨isStart, target⟩
  apply Meets.bind ((meets_stage prepares).start isStart)
  intro _
  apply Meets.bind (meets_stage meets_compileUnits)
  intro _
  apply Meets.of_start
  intro later holds
  rcases holds with ⟨⟨made, _⟩, acyclic⟩
  have copies : Meets (fun state => state.compilation.IsReady tool request)
      (workOf tool request .copyResources)
      (fun _ state => state.compilation.IsReady tool request) fun _ state => state.OnlyCompiles :=
    ready_of_keeps (keepsCompilation_of_core (keeps_copyResources tool request))
  apply Meets.bind ((meets_stage copies).start ⟨made, acyclic, target⟩)
  intro _
  exact .pure fun _ => id

theorem meets_untilPacking :
    Meets (fun state => state.compilation.IsStart request) (untilPacking tool request)
      (fun _ state => state.compilation.IsReady tool request)
      fun _ state => state.OnlyCompiles := by
  apply Meets.bind (start_of_keeps (keeps_say request _ _))
  intro _
  apply Meets.bind meets_firstStages
  intro _
  apply Meets.bind (ready_of_keeps (keepsCompilation_enter _))
  intro _
  apply Meets.bind (ready_of_keeps (keepsCompilation_of_core (keeps_writeDescriptor tool request)))
  intro _
  exact ready_of_keeps (keepsCompilation_of_core (keeps_say request _ _))

/-! ## The container -/

theorem meets_changingFiles {ε α : Type} {change : FileTree → FileTree × Except ε α}
    {start : ExportState} {ended : ExportError → ExportState → Prop} :
    Meets (fun state => state = start) (changingFiles change)
      (fun result state => state = start.withFiles (change start.files).1 ∧
        result = (change start.files).2) ended := by
  intro state same
  subst same
  exact ⟨rfl, rfl⟩

theorem meets_packWorkingFiles {packing : ExportState} :
    Meets (fun state => state = packing) (packWorkingFiles tool request)
      (fun _ state => state.compilation = packing.compilation ∧ PacksContainer tool packing)
      fun _ state => state.compilation = packing.compilation := by
  apply meets_get_bind
  intro state start
  subst start
  split
  · exact .throw fun _ start => congrArg _ start
  · rename_i names listed
    apply Meets.bind meets_changingFiles
    intro result
    apply Meets.of_start
    intro packed holds
    rcases holds with ⟨same, outcome⟩
    have same : packed.compilation = state.compilation := by rw [same]; rfl
    cases result with
    | error cause => exact .throw fun _ start => by rw [start, same]
    | ok =>
        have removes : Keeps ExportState.compilation
            (names.forM (removeWorkingFile tool request)) :=
          .forM fun name => keepsCompilation_of_core (keeps_removeWorkingFile tool request name)
        have kept := removes.meets (fun compilation => compilation = state.compilation)
          fun _ _ => id
        apply Meets.imp (kept.start same)
        intro _ later same
        exact ⟨same, names, _, listed, Prod.ext rfl outcome.symm⟩

/-! ## The link -/

def LinksObjects (compilation : Compilation) (state : ExportState) : Prop :=
  ∃ record : SubmittedJob, record.job.call.kind = .link ∧
    record.job.call.objects = compilation.objects ∧ state.jobs = compilation.jobs ++ [record]

theorem linksObjects_of_keeps {α : Type} {part : ExportM α} {compilation : Compilation}
    (keeps : Keeps ExportState.jobs part) :
    Meets (LinksObjects compilation) part (fun _ => LinksObjects compilation)
      fun _ state => state.jobs = compilation.jobs ∨ LinksObjects compilation state :=
  keeps.meets (fun jobs => ∃ record : SubmittedJob, record.job.call.kind = .link ∧
      record.job.call.objects = compilation.objects ∧ jobs = compilation.jobs ++ [record])
    fun _ _ => .inr

theorem meets_link {compilation : Compilation} (empty : compilation.queue.IsEmpty) :
    Meets (fun state => state.compilation = compilation) (link tool request)
      (fun _ => LinksObjects compilation)
      fun _ state => state.jobs = compilation.jobs ∨ LinksObjects compilation state := by
  have said : Meets (fun state => state.compilation = compilation)
      (say request "Linking project files..." none)
      (fun _ state => state.compilation = compilation)
      fun _ state => state.jobs = compilation.jobs ∨ LinksObjects compilation state :=
    (keepsCompilation_of_core (keeps_say request _ _)).meets
      (fun other => other = compilation) fun _ _ same => .inl (congrArg Compilation.jobs same)
  apply Meets.bind said
  intro _
  apply meets_get_bind
  intro start same
  subst same
  have submits := meets_submitAndWait tool empty
    (rfl : (linkJob tool request start.project start.objects start.files).token = request.token)
  apply Meets.bind (submits.weaken (fun _ => id) (fun _ _ => id) ?_)
  · intro _
    apply meets_get_bind
    intro state holds
    rcases holds with ⟨ended, _, _, rfl⟩
    have links : LinksObjects start.compilation ((start.submitted
        ⟨linkJob tool request start.project start.objects start.files, ended⟩).resumed ended) :=
      ⟨_, rfl, rfl, rfl⟩
    dsimp only
    split
    · apply Meets.bind ((linksObjects_of_keeps (keepsJobs_of_core (keeps_say request _ _))).start
        links)
      intro _
      exact linksObjects_of_keeps (keepsJobs_of_core (keeps_progress request _))
    · apply meets_get_bind
      intro _ same
      apply meets_throw_bind
      intro _ later
      rw [later, same]
      exact .inr links
  · intro _ state failed
    rcases failed with same | ⟨ended, same⟩
    · exact .inl same
    · exact .inr ⟨_, rfl, rfl, same⟩

theorem meets_afterPacking {compilation : Compilation} (empty : compilation.queue.IsEmpty) :
    Meets (fun state => state.compilation = compilation) (afterPacking tool request)
      (fun _ => LinksObjects compilation)
      fun _ state => state.jobs = compilation.jobs ∨ LinksObjects compilation state := by
  have enters (stage : Stage) : Keeps ExportState.jobs (enter stage) := .modify fun _ => rfl
  have copies := keepsJobs_of_core (keeps_copyPlatformFiles tool request)
  have packages := keepsJobs_package tool request
  have ends := keepsJobs_of_core (keeps_progress request (.percent 100))
  have lastStages : Keeps ExportState.jobs
      (goThrough tool request [.copyPlatformFiles, .package, .done]) :=
    .bind (.bind (enters _) fun _ => copies) fun _ =>
      .bind (.bind (enters _) fun _ => packages) fun _ =>
        .bind (.bind (enters _) fun _ => ends) fun _ => .pure _
  have links : Meets (fun state => state.compilation = compilation)
      (do
        enter .link
        workOf tool request .link)
      (fun _ => LinksObjects compilation)
      fun _ state => state.jobs = compilation.jobs ∨ LinksObjects compilation state := by
    intro state same
    rw [run_bind]
    exact meets_link empty _ same
  apply Meets.bind links
  intro _
  exact linksObjects_of_keeps lastStages

/-- The rest of an export that has come as far as packing: if it submits a job, then the one that
links, and after it has packed the container. -/
theorem meets_rest {packing : ExportState} (ready : packing.compilation.IsReady tool request) :
    Meets (fun state => state = packing)
      (do
        packWorkingFiles tool request
        afterPacking tool request)
      (fun _ state => PacksContainer tool packing ∧ LinksObjects packing.compilation state)
      fun _ state => state.OnlyCompiles ∨
        PacksContainer tool packing ∧ LinksObjects packing.compilation state := by
  have onlyCompiles {state : ExportState} (same : state.jobs = packing.compilation.jobs) :
      state.OnlyCompiles := by
    intro record member
    rw [same] at member
    exact ready.1.onlyCompiles record member
  apply Meets.bind (meets_packWorkingFiles.weaken (fun _ => id) (fun _ _ => id) ?_)
  · intro _
    apply Meets.of_start
    intro packed holds
    rcases holds with ⟨same, packs⟩
    apply ((meets_afterPacking ready.1.queue).start same).weaken (fun _ => id)
    · intro _ state links
      exact ⟨packs, links⟩
    · intro _ state failed
      rcases failed with unlinked | links
      · exact .inl (onlyCompiles unlinked)
      · exact .inr ⟨packs, links⟩
  · intro _ state same
    exact .inl (onlyCompiles (congrArg Compilation.jobs same))

/-! ## The whole export -/

theorem links_of_linksObjects {workshop : Workshop} {state packing : ExportState}
    (reached : (untilPacking tool request).run.run (.initial workshop request.project) =
      (.ok (), packing))
    (ready : packing.compilation.IsReady tool request) (packs : PacksContainer tool packing)
    (links : LinksObjects packing.compilation state) :
    ∃ record, LinksLast tool request workshop state packing record := by
  rcases ready with ⟨made, acyclic, target⟩
  rcases links with ⟨record, isLink, objects, jobs⟩
  refine ⟨record, isLink, jobs, target, ?_, reached, packs, made.made, made.complete, ?_⟩
  · intro unit events body
    exact acyclic unit events body unit .refl
  · intro path
    rw [objects, made.objects, List.mem_map]
    constructor
    · rintro ⟨earlier, member, rfl⟩
      rcases made.made earlier member with ⟨unit, linked, isMade⟩
      exact ⟨unit, linked, isMade.output⟩
    · rintro ⟨unit, linked, rfl⟩
      rcases made.complete unit linked with ⟨earlier, member, isMade⟩
      exact ⟨earlier, member, isMade.output⟩

/-- An export submits the job that links only as its last one, after all that it needs; in every
other case it submits no such job and fails. -/
theorem exportGame_links (tool : ExportTool) (request : ExportRequest) (workshop : Workshop)
    (balanced : workshop.queue.Balanced) :
    (∃ packing record, LinksLast tool request workshop
      ((exportStages tool request).run.run (.initial workshop request.project)).2 packing record) ∨
    ((∀ record ∈ ((exportStages tool request).run.run (.initial workshop request.project)).2.jobs,
        record.job.call.kind = .compile) ∧
      (exportGame tool request workshop).report.failure.isSome = true) := by
  have report : (exportGame tool request workshop).report =
      reportOf ((exportStages tool request).run.run (.initial workshop request.project)).2
        ((exportStages tool request).run.run (.initial workshop request.project)).1 := rfl
  have isStart : (ExportState.initial workshop request.project).compilation.IsStart request :=
    ⟨⟨rfl, rfl, rfl, rfl⟩, balanced⟩
  have first : Meets _ (untilPacking tool request) _ _ := meets_untilPacking
  rw [report, exportStages_eq, run_bind]
  cases reached : (untilPacking tool request).run.run (.initial workshop request.project) with
  | mk result packing =>
      cases result with
      | error error => exact .inr ⟨first.of_error isStart reached, rfl⟩
      | ok =>
          have ready := first.of_ok isStart reached
          have rest := meets_rest ready
          have linked {state : ExportState}
              (done : PacksContainer tool packing ∧ LinksObjects packing.compilation state) :
              ∃ packing record, LinksLast tool request workshop state packing record :=
            ⟨packing, links_of_linksObjects reached ready done.1 done.2⟩
          dsimp only
          generalize (packWorkingFiles tool request >>= fun _ => afterPacking tool request) = part
            at rest ⊢
          cases ran : part.run.run packing with
          | mk result final =>
              cases result with
              | ok => exact .inl (linked (rest.of_ok rfl ran))
              | error error =>
                  rcases rest.of_error rfl ran with unlinked | done
                  · exact .inr ⟨unlinked, rfl⟩
                  · exact .inl (linked done)

def loopGame : Project where
  name := "Loop"
  file := ⟨"game.json"⟩
  scenes := [⟨"Loop", [], [.link "Loop"], false, none⟩]
  externalEvents := []
  sourceFiles := []
  resources := []
  objects := []
  extensions := []
  windowsExecutable := ""
  linuxExecutable := ""
  macExecutable := ""
  usesExternalSources := false
  editor := none

theorem hasEvents_loopGame : loopGame.HasEvents (.scene "Loop") [.link "Loop"] := by
  have declared : Scene.mk "Loop" [] [.link "Loop"] false none ∈ loopGame.scenes :=
    List.mem_singleton_self _
  exact .scene declared

theorem onCycle_loopGame : loopGame.OnCycle (.scene "Loop") := by
  have noSheet : ¬ loopGame.Declares (.externalEvents "Loop") := by
    rw [Project.declares_externalEvents]
    rintro ⟨sheet, declared, _⟩
    cases declared
  have resolves : loopGame.Resolves "Loop" (.scene "Loop") :=
    .scene noSheet hasEvents_loopGame.declares
  exact .single
    ⟨true, .link hasEvents_loopGame (.direct (List.mem_singleton_self _)) resolves⟩

def loopRequest : ExportRequest where
  project := loopGame
  options := ⟨⟨"/out"⟩, TargetSet.empty.insert .linux, false, false⟩
  caller := ⟨0, []⟩
  tokenId := 1
  react := fun _ world => world

/-- A game that includes itself is not linked, even if the compiler makes every output. -/
theorem exportGame_links_loopGame :
    (Queue.idle ⟨"/log"⟩ none).Balanced ∧
      (∀ record ∈ ((exportStages obligingTool loopRequest).run.run
          (.initial ⟨⟨⟨[], []⟩, []⟩, .idle ⟨"/log"⟩ none⟩ loopRequest.project)).2.jobs,
        record.job.call.kind = .compile) ∧
      (exportGame obligingTool loopRequest
        ⟨⟨⟨[], []⟩, []⟩, .idle ⟨"/log"⟩ none⟩).report.failure.isSome = true := by
  have balanced : (Queue.idle ⟨"/log"⟩ none).Balanced := rfl
  refine ⟨balanced, ?_⟩
  rcases exportGame_links obligingTool loopRequest ⟨⟨⟨[], []⟩, []⟩, .idle ⟨"/log"⟩ none⟩ balanced
    with ⟨packing, record, links⟩ | failed
  · exact absurd onCycle_loopGame (links.acyclic _ _ hasEvents_loopGame)
  · exact failed

end GameExport
