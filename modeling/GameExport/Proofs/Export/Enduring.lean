import GameExport.Proofs.Export.Awaiting

/-! # What compiling cannot break

Compiling units is made of few kinds of steps: the host is told something, a job is submitted and
waited for, an object is taken, a source file is met. Main statement: a property that endures each
of these steps endures the compilation of all units, and linking as well.
-/

namespace GameExport

open ExportM

variable (tool : ExportTool) (request : ExportRequest)

/-- A property endures every step of compiling, if only jobs of some kind are submitted. -/
structure Enduring (admits : Job → Prop) (property : ExportState → Prop) : Prop where
  told : ∀ notice, Maintains property (tell request notice)
  resumed : ∀ state ended, property state → property (state.resumed ended)
  submitted : ∀ state record, admits record.job → property state →
    property (state.submitted record)
  taken : ∀ state (object : Path), property state →
    property { state with objects := state.objects ++ [object] }
  met : ∀ state sources, property state → property { state with sources := sources }

/-- What holds lasts through every step of compiling, if only jobs of some kind are submitted. How
jobs are waited for is left open, and so is what holds once the export has ended. -/
structure Lasting (await : Awaiting) (admits : Job → Prop) (holds : ExportState → Prop)
    (ended : ExportError → ExportState → Prop) : Prop where
  said : ∀ text detail, Carries holds ended (say request text detail)
  progressed : ∀ value, Carries holds ended (progress request value)
  failed : ∀ error state, error.isFatal = true → holds state → ended error state
  waited : ∀ job, admits job → Carries holds ended (await.submitAndWait tool request job)
  taken : ∀ state (object : Path), holds state →
    holds { state with objects := state.objects ++ [object] }
  met : ∀ state sources, holds state → holds { state with sources := sources }

/-- What holds lasts through every step of compiling and linking, if each job is taken together
with the look at its output: in between it may not hold. -/
structure LastingChecked (await : Awaiting) (admits : Job → Prop) (holds : ExportState → Prop)
    (ended : ExportError → ExportState → Prop) : Prop where
  said : ∀ text detail, Carries holds ended (say request text detail)
  progressed : ∀ value, Carries holds ended (progress request value)
  failed : ∀ error state, error.isFatal = true → holds state → ended error state
  compiled : ∀ job files, admits job → job.call.output = files.object →
    job.unit = some files.unit →
    Carries holds ended (await.submitAndWait tool request job >>= fun _ => takeObject files)
  linked : ∀ job, admits job → job.unit = none →
    Carries holds ended (await.submitAndWait tool request job >>= fun _ => checkLibrary job)
  met : ∀ state sources, holds state → holds { state with sources := sources }

theorem keeps_makeGenerated : Keeps ExportState.core (makeGenerated tool request) := by
  refine .bind (keeps_changingFiles _) fun created => ?_
  cases created with
  | error cause => exact keeps_record request _
  | ok => exact .pure _

theorem keepsJobs_openGenerated : Keeps ExportState.jobs (openGenerated tool request) :=
  .bind (.modify fun _ => rfl) fun _ => keepsJobs_of_core (keeps_makeGenerated tool request)

theorem keepsOutline_openGenerated :
    Keeps (fun state => state.project.outline) (openGenerated tool request) :=
  .bind (.modify fun state => outline_withoutProfiler state.project) fun _ =>
    (keeps_makeGenerated tool request).of_observed fun core => core.project.outline

section Steps

variable {tool request} {admits : Job → Prop} {property : ExportState → Prop}

theorem Enduring.submitAndWait (endures : Enduring request admits property) {job : Job}
    (admitted : admits job) : Maintains property (submitAndWait tool request job) := by
  have submits (ended : Workshop.WaitEnd) : Maintains property (do
      modify fun state => { state with jobs := state.jobs ++ [⟨job, ended⟩] }
      resume tool request ended) := by
    intro state holds
    rw [run_bind]
    have added := endures.submitted state ⟨job, ended⟩ admitted holds
    exact meets_resume tool request (fun _ state => endures.resumed state ended)
      (fun _ state => endures.resumed state ended) _ added
  unfold GameExport.submitAndWait
  apply meets_get_bind
  intro start holds
  apply Meets.start _ holds
  dsimp only
  split
  · exact meets_throw_bind fun _ => id
  · exact submits _

theorem Enduring.lasting (endures : Enduring request admits property) :
    Lasting tool request ⟨awaited tool request⟩ admits property fun _ => property where
  said := fun _ _ => endures.told _
  progressed := fun _ => endures.told _
  failed := fun _ _ _ => id
  waited := fun _ => endures.submitAndWait
  taken := endures.taken
  met := endures.met

theorem maintains_makeGenerated
    (creates : Maintains property (changingFiles fun files =>
      files.createDirectories tool.settings.generatedDirectory))
    (records : ∀ error, Maintains property (record request error)) :
    Maintains property (makeGenerated tool request) := by
  apply Meets.bind creates
  intro created
  cases created with
  | error cause => exact records _
  | ok => exact Meets.pure fun _ => id

theorem isFatal_ofInclusion (error : InclusionError) :
    (ExportError.ofInclusion error).isFatal = true := by
  cases error <;> rfl

namespace Lasting

variable {await : Awaiting} {holds : ExportState → Prop}
  {ended : ExportError → ExportState → Prop}
  (lasts : Lasting tool request await admits holds ended)

include lasts

theorem takeObject (files : UnitFiles) : Carries holds ended (takeObject files) := by
  apply meets_get_bind
  intro start held
  split
  · apply Meets.set
    intro _ _
    exact lasts.taken start files.object held
  · apply Meets.throw
    intro state same
    exact lasts.failed _ state rfl (same ▸ held)

theorem checkLibrary (job : Job) : Carries holds ended (checkLibrary job) := by
  apply meets_get_bind
  intro start held
  split
  · apply Meets.pure
    intro state same
    exact same ▸ held
  · apply meets_get_bind
    intro _ same
    apply Meets.throw
    intro state later
    exact lasts.failed _ state rfl (by rw [later, same]; exact held)

theorem checked : LastingChecked tool request await admits holds ended where
  said := lasts.said
  progressed := lasts.progressed
  failed := lasts.failed
  compiled := fun _ files admitted _ _ =>
    Meets.bind (lasts.waited _ admitted) fun _ => lasts.takeObject files
  linked := fun job admitted _ =>
    Meets.bind (lasts.waited _ admitted) fun _ => lasts.checkLibrary job
  met := lasts.met

end Lasting

namespace LastingChecked

variable {await : Awaiting} {holds : ExportState → Prop}
  {ended : ExportError → ExportState → Prop}
  (lasts : LastingChecked tool request await admits holds ended)

include lasts

theorem requirementsOf (analysis : InclusionAnalysis) (unit : UnitName) :
    Carries holds ended (requirementsOf analysis unit) := by
  unfold GameExport.requirementsOf
  split
  · exact Meets.pure fun _ => id
  · rename_i error _
    exact Meets.throw fun state => lasts.failed _ state (isFatal_ofInclusion error)

theorem compileEvents {project : Project} {compiled : NameSet} {unit : UnitName}
    (admitted : admits (eventsJob tool request project compiled unit)) :
    Carries holds ended (await.compileEvents tool request project compiled unit) :=
  lasts.compiled _ _ admitted rfl rfl

variable (sources : ∀ project source, admits
  (sourceJob request (Project.sourceUnit project source tool.settings.generatedDirectory)))

include sources

theorem compileSource (name : String) :
    Carries holds ended (await.compileSource tool request name) := by
  apply meets_get_bind
  intro start held
  apply Meets.start _ held
  dsimp only
  split
  · exact Meets.pure fun _ => id
  · rename_i source _
    apply Meets.bind (lasts.said _ _)
    intro _
    have admitted := sources start.project source
    generalize start.project.sourceUnit source tool.settings.generatedDirectory = files
      at admitted ⊢
    exact lasts.compiled (sourceJob request files) files admitted rfl rfl

theorem compileNewSources (names : NameSet) :
    Carries holds ended (await.compileNewSources tool request names) := by
  apply Meets.forM_keeping
  intro name _
  apply meets_get_bind
  intro start held
  apply Meets.start _ held
  split
  · exact Meets.pure fun _ => id
  · intro state held
    rw [run_bind]
    exact lasts.compileSource sources name _ (lasts.met state _ held)

variable {project : Project} {analysis : InclusionAnalysis}

theorem compileScene {compiled : NameSet} {own : List (String × String)}
    (same : compiled = NameSet.ofList (own.map (·.1)))
    (events : ∀ unit, (∀ name, unit ≠ .sourceFile name) →
      admits (eventsJob tool request project compiled unit))
    (total : Nat) (scene : String × Nat) :
    Carries holds ended (await.compileScene tool request project analysis own total scene) := by
  subst same
  apply Meets.bind (lasts.requirementsOf _ _)
  intro requirements
  apply Meets.bind (lasts.said _ _)
  intro _
  apply Meets.bind (lasts.compileNewSources sources _)
  intro _
  apply Meets.bind (Meets.forM_keeping fun sheet _ =>
    lasts.compileEvents (events (.externalEvents sheet) nofun))
  intro _
  apply Meets.bind (lasts.compileEvents (events (.scene scene.1) nofun))
  intro _
  apply Meets.bind (lasts.said _ _)
  intro _
  exact lasts.progressed _

theorem compileLoops
    (events : ∀ unit, (∀ name, unit ≠ .sourceFile name) → admits (eventsJob tool request project
      (.ofList ((ownSheets project analysis).map (·.1))) unit)) :
    Carries holds ended (await.compileLoops tool request project analysis) := by
  apply Meets.bind (Meets.forM_keeping fun scene _ =>
    lasts.compileScene sources rfl events _ scene)
  intro _
  apply Meets.forM_keeping
  intro sheet _
  apply Meets.bind (lasts.requirementsOf _ _)
  intro requirements
  exact lasts.compileNewSources sources _

theorem compileUnits
    (unmeasured : ∀ state, holds state → holds { state with
      project := { state.project with scenes := state.project.scenes.map Scene.withoutProfiler } })
    (makes : Carries holds ended (makeGenerated tool request))
    (events : ∀ project compiled unit, admits (eventsJob tool request project compiled unit)) :
    Carries holds ended (await.compileUnits tool request) := by
  have opens : Carries holds ended (openGenerated tool request) := by
    intro state held
    unfold openGenerated
    rw [run_bind]
    exact makes _ (unmeasured state held)
  apply Meets.bind opens
  intro _
  apply meets_get_bind
  intro start held
  apply Meets.start _ held
  exact lasts.compileLoops sources fun unit _ => events _ _ unit

omit sources in
theorem link
    (links : ∀ project objects files, admits (linkJob tool request project objects files)) :
    Carries holds ended (await.link tool request) := by
  rw [Awaiting.link_eq]
  apply Meets.bind (lasts.said _ _)
  intro _
  apply meets_get_bind
  intro start held
  apply Meets.start _ held
  apply Meets.bind (lasts.linked _ (links _ _ _) rfl)
  intro _
  apply Meets.bind (lasts.said _ _)
  intro _
  exact lasts.progressed _

end LastingChecked

theorem Enduring.compileLoops (endures : Enduring request admits property)
    (sources : ∀ files name, files.unit = .sourceFile name → admits (sourceJob request files))
    {project : Project} {analysis : InclusionAnalysis}
    (events : ∀ unit, (∀ name, unit ≠ .sourceFile name) → admits (eventsJob tool request project
      (.ofList ((ownSheets project analysis).map (·.1))) unit)) :
    Maintains property (compileLoops tool request project analysis) :=
  endures.lasting.checked.compileLoops (fun _ source => sources _ source.name rfl) events

theorem maintains_compileUnits
    (carries : Maintains property (Awaiting.compileUnits ⟨awaited tool request⟩ tool request)) :
    Maintains property (compileUnits tool request) := by
  rwa [compileUnits_awaited] at carries

end Steps

end GameExport
