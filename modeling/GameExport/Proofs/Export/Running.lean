import GameExport.Export.Run

/-! # Reasoning about the parts of an export

A part of an export is described by what holds before it, what holds after it has succeeded, and
what holds if it has ended the export. Main statements: one rule for each way in which parts are
put together, and what the parts that only talk to the host and change files leave alone.
-/

namespace GameExport.ExportM

/-- If `before` holds, then `after` holds once the part has succeeded, and `ended` if it has ended
the export. -/
def Meets {α : Type} (before : ExportState → Prop) (part : ExportM α)
    (after : α → ExportState → Prop) (ended : ExportError → ExportState → Prop) : Prop :=
  ∀ state, before state →
    match part.run.run state with
    | (.ok value, state) => after value state
    | (.error error, state) => ended error state

def Keeps {α β : Type} (observe : ExportState → β) (part : ExportM α) : Prop :=
  ∀ state, observe (part.run.run state).2 = observe state

/-- What holds before a part holds after it, unless it has ended the export. -/
abbrev Carries {α : Type} (holds : ExportState → Prop) (ended : ExportError → ExportState → Prop)
    (part : ExportM α) : Prop :=
  Meets holds part (fun _ => holds) ended

/-- What holds before a part holds after it, whether it succeeds or ends the export. -/
def Maintains {α : Type} (property : ExportState → Prop) (part : ExportM α) : Prop :=
  Meets property part (fun _ => property) fun _ => property

theorem run_bind {α β : Type} (part : ExportM α) (next : α → ExportM β) (state : ExportState) :
    (part >>= next).run.run state =
      match part.run.run state with
      | (.ok value, state) => (next value).run.run state
      | (.error error, state) => (.error error, state) := by
  show (ExceptT.bind part next).run.run state = _
  simp only [ExceptT.bind, ExceptT.run, ExceptT.mk, StateT.run, bind, StateT.bind]
  cases part state with
  | mk result state => cases result <;> rfl

theorem of_run_bind_eq_ok {α β : Type} {part : ExportM α} {next : α → ExportM β}
    {state final : ExportState} {value : β}
    (run : (part >>= next).run.run state = (.ok value, final)) :
    ∃ given between, part.run.run state = (.ok given, between) ∧
      (next given).run.run between = (.ok value, final) := by
  rw [run_bind] at run
  generalize part.run.run state = outcome at run ⊢
  rcases outcome with ⟨result, between⟩
  cases result with
  | error error => cases run
  | ok given => exact ⟨given, between, rfl, run⟩

/-! ## Rules -/

section Rules

variable {α β : Type} {before between : ExportState → Prop} {after : α → ExportState → Prop}
  {ended : ExportError → ExportState → Prop}

theorem Meets.of_ok {part : ExportM α} {state final : ExportState} {value : α}
    (meets : Meets before part after ended) (holds : before state)
    (run : part.run.run state = (.ok value, final)) : after value final := by
  have outcome := meets state holds
  rwa [run] at outcome

theorem Meets.of_error {part : ExportM α} {state final : ExportState} {error : ExportError}
    (meets : Meets before part after ended) (holds : before state)
    (run : part.run.run state = (.error error, final)) : ended error final := by
  have outcome := meets state holds
  rwa [run] at outcome

theorem Meets.pure {value : α} (holds : ∀ state, before state → after value state) :
    Meets before (pure value) after ended :=
  holds

theorem Meets.throw {error : ExportError} (holds : ∀ state, before state → ended error state) :
    Meets before (throw error) after ended :=
  holds

theorem Meets.modify {change : ExportState → ExportState} {after : Unit → ExportState → Prop}
    (holds : ∀ state, before state → after () (change state)) :
    Meets before (modify change) after ended :=
  holds

theorem Meets.set {next : ExportState} {after : Unit → ExportState → Prop}
    (holds : ∀ state, before state → after () next) : Meets before (set next) after ended :=
  holds

theorem Meets.bind {part : ExportM α} {next : α → ExportM β} {after : β → ExportState → Prop}
    {between : α → ExportState → Prop} (first : Meets before part between ended)
    (second : ∀ value, Meets (between value) (next value) after ended) :
    Meets before (part >>= next) after ended := by
  intro state holds
  have middle := first state holds
  rw [run_bind]
  generalize part.run.run state = outcome at middle ⊢
  obtain ⟨result, state⟩ := outcome
  cases result with
  | error error => exact middle
  | ok value => exact second value state middle

theorem Meets.weaken {part : ExportM α} {before' : ExportState → Prop}
    {after' : α → ExportState → Prop} {ended' : ExportError → ExportState → Prop}
    (meets : Meets before part after ended) (start : ∀ state, before' state → before state)
    (success : ∀ value state, after value state → after' value state)
    (failure : ∀ error state, ended error state → ended' error state) :
    Meets before' part after' ended' := by
  intro state holds
  have outcome := meets state (start state holds)
  generalize part.run.run state = result at outcome ⊢
  obtain ⟨result, state⟩ := result
  cases result with
  | error error => exact failure error state outcome
  | ok value => exact success value state outcome

theorem Meets.forM {part : α → ExportM PUnit} {holds : List α → ExportState → Prop}
    {items : List α}
    (step : ∀ done item rest, items = done ++ item :: rest →
      Meets (holds done) (part item) (fun _ => holds (done ++ [item])) ended) :
    Meets (holds []) (items.forM part) (fun _ => holds items) ended := by
  suffices whole : ∀ done rest, items = done ++ rest →
      Meets (holds done) (rest.forM part) (fun _ => holds items) ended by
    exact whole [] items rfl
  intro done rest
  induction rest generalizing done with
  | nil =>
      intro same
      rw [List.append_nil] at same
      subst same
      exact .pure fun _ => id
  | cons item rest induction =>
      intro same
      change Meets (holds done) (part item >>= fun _ => rest.forM part) _ _
      refine .bind (step done item rest same) fun _ => ?_
      exact induction (done ++ [item]) (by simpa using same)

theorem Meets.forM_keeping {part : α → ExportM PUnit} {items : List α}
    (step : ∀ item ∈ items, Meets before (part item) (fun _ => before) ended) :
    Meets before (items.forM part) (fun _ => before) ended := by
  have each : ∀ done item rest, items = done ++ item :: rest →
      Meets ((fun _ => before) done) (part item) (fun _ => before) ended :=
    fun done item rest same => step item (by simp [same])
  exact Meets.forM each

theorem Carries.mapM {part : α → ExportM β} (items : List α)
    (step : ∀ item, Carries before ended (part item)) : Carries before ended (items.mapM part) := by
  induction items with
  | nil => exact Meets.pure fun _ => id
  | cons item rest induction =>
      rw [List.mapM_cons]
      apply Meets.bind (step item)
      intro _
      apply Meets.bind induction
      intro _
      exact .pure fun _ => id

theorem Maintains.meets {property : ExportState → Prop} {part : ExportM α}
    (maintains : Maintains property part) :
    Meets property part (fun _ => property) fun _ _ => True :=
  Meets.weaken maintains (fun _ => id) (fun _ _ => id) fun _ _ _ => trivial

theorem Maintains.and {first second : ExportState → Prop} {part : ExportM α}
    (maintains : Maintains first part) (maintainsToo : Maintains second part) :
    Maintains (fun state => first state ∧ second state) part := by
  intro state holds
  have one := maintains state holds.1
  have other := maintainsToo state holds.2
  generalize part.run.run state = outcome at one other ⊢
  rcases outcome with ⟨result, state⟩
  cases result with
  | error error => exact ⟨one, other⟩
  | ok value => exact ⟨one, other⟩

theorem Meets.imp {part : ExportM α} {weaker : α → ExportState → Prop}
    (meets : Meets before part after ended)
    (success : ∀ value state, after value state → weaker value state) :
    Meets before part weaker ended :=
  meets.weaken (fun _ => id) success fun _ _ => id

theorem Meets.of_start {part : ExportM α}
    (each : ∀ start, before start → Meets (fun state => state = start) part after ended) :
    Meets before part after ended :=
  fun state holds => each state holds state rfl

theorem Meets.start {part : ExportM α} {start : ExportState}
    (meets : Meets before part after ended) (holds : before start) :
    Meets (fun state => state = start) part after ended :=
  fun state same => meets state (same ▸ holds)

theorem meets_get_bind {next : ExportState → ExportM α}
    (each : ∀ start, before start → Meets (fun state => state = start) (next start) after ended) :
    Meets before (get >>= next) after ended := by
  intro state holds
  rw [run_bind]
  exact each state holds state rfl

theorem meets_modify_bind {change : ExportState → ExportState} {next : Unit → ExportM α}
    {start : ExportState} (rest : Meets (fun state => state = change start) (next ()) after ended) :
    Meets (fun state => state = start) (modify change >>= next) after ended := by
  intro state same
  rw [run_bind, same]
  exact rest (change start) rfl

theorem meets_throw_bind {error : ExportError} {next : α → ExportM β}
    {after : β → ExportState → Prop} (holds : ∀ state, before state → ended error state) :
    Meets before (throw error >>= next) after ended :=
  holds

def Gives (part : ExportM α) (property : α → Prop) : Prop :=
  Meets (fun _ => True) part (fun value _ => property value) fun _ _ => True

theorem Gives.pure {value : α} {property : α → Prop} (holds : property value) :
    Gives (pure value) property :=
  Meets.pure fun _ _ => holds

theorem Gives.bind {part : ExportM α} {next : α → ExportM β} {given : α → Prop}
    {property : β → Prop} (first : Gives part given)
    (second : ∀ value, given value → Gives (next value) property) :
    Gives (part >>= next) property := by
  apply Meets.bind first
  intro value state holds
  exact second value holds state trivial

theorem Meets.anything (part : ExportM α) :
    Meets before part (fun _ _ => True) fun _ _ => True := by
  intro state _
  cases part.run.run state with
  | mk result state => cases result <;> trivial

theorem Gives.anything (part : ExportM α) : Gives part fun _ => True :=
  Meets.anything part

theorem Gives.mapM {γ : Type} {part : α → ExportM β} {tell : β → γ} {told : α → γ}
    (items : List α) (step : ∀ item, Gives (part item) fun value => tell value = told item) :
    Gives (items.mapM part) fun values => values.map tell = items.map told := by
  induction items with
  | nil => exact .pure rfl
  | cons item rest induction =>
      rw [List.mapM_cons]
      apply Gives.bind (step item)
      intro value sameFirst
      apply Gives.bind induction
      intro values sameRest
      apply Gives.pure
      rw [List.map_cons, List.map_cons, sameFirst, sameRest]

theorem Meets.giving {part : ExportM α} {property : α → Prop}
    (meets : Meets before part after ended) (gives : Gives part property) :
    Meets before part (fun value state => after value state ∧ property value) ended := by
  intro state holds
  have outcome := meets state holds
  have given := gives state trivial
  generalize part.run.run state = result at outcome given ⊢
  rcases result with ⟨result, state⟩
  cases result with
  | error error => exact outcome
  | ok value => exact ⟨outcome, given⟩

end Rules

section Keeps

variable {α β γ : Type} {observe : ExportState → γ}

theorem Keeps.pure (value : α) : Keeps observe (pure value) := fun _ => rfl

theorem Keeps.throw (error : ExportError) : Keeps observe (throw error : ExportM α) := fun _ => rfl

theorem Keeps.get : Keeps observe get := fun _ => rfl

theorem Keeps.modify {change : ExportState → ExportState}
    (same : ∀ state, observe (change state) = observe state) : Keeps observe (modify change) :=
  same

theorem Keeps.bind {part : ExportM α} {next : α → ExportM β} (first : Keeps observe part)
    (second : ∀ value, Keeps observe (next value)) : Keeps observe (part >>= next) := by
  intro state
  have middle := first state
  rw [run_bind]
  generalize part.run.run state = outcome at middle ⊢
  obtain ⟨result, state⟩ := outcome
  cases result with
  | error error => exact middle
  | ok value => exact (second value state).trans middle

theorem Keeps.forM {part : α → ExportM PUnit} {items : List α}
    (step : ∀ item, Keeps observe (part item)) : Keeps observe (items.forM part) := by
  induction items with
  | nil => exact .pure _
  | cons item rest induction =>
      change Keeps observe (part item >>= fun _ => rest.forM part)
      exact .bind (step item) fun _ => induction

theorem Keeps.of_observed {part : ExportM α} (keeps : Keeps observe part) (tell : γ → β) :
    Keeps (fun state => tell (observe state)) part :=
  fun state => congrArg tell (keeps state)

theorem Keeps.meets {part : ExportM α} (keeps : Keeps observe part) (property : γ → Prop)
    {ended : ExportError → ExportState → Prop}
    (fails : ∀ error state, property (observe state) → ended error state) :
    Meets (fun state => property (observe state)) part (fun _ state => property (observe state))
      ended := by
  intro state holds
  have same := keeps state
  generalize part.run.run state = outcome at same ⊢
  rcases outcome with ⟨result, state⟩
  have holds : property (observe state) := by rwa [same]
  cases result with
  | error error => exact fails error state holds
  | ok value => exact holds

theorem Keeps.maintains {part : ExportM α} (keeps : Keeps observe part) (property : γ → Prop) :
    Maintains (fun state => property (observe state)) part :=
  keeps.meets property fun _ _ => id

end Keeps

end GameExport.ExportM

namespace GameExport

open ExportM

/-! ## What is left alone -/

/-- A state without what the host is told, the errors recorded so far and the world that jobs act
on. -/
structure ExportCore where
  queue : Queue
  project : Project
  resources : ResourceNames
  sources : NameSet
  objects : List Path
  stages : List Stage
  artifacts : List Path
  jobs : List SubmittedJob

/-- What of a state is left alone by talking to the host and changing files. -/
def ExportState.core (state : ExportState) : ExportCore where
  queue := state.workshop.queue
  project := state.project
  resources := state.resources
  sources := state.sources
  objects := state.objects
  stages := state.stages
  artifacts := state.artifacts
  jobs := state.jobs

variable (tool : ExportTool) (request : ExportRequest)

theorem keeps_tell (notice : Notice Progress) : Keeps ExportState.core (tell request notice) :=
  fun _ => rfl

theorem keeps_say (text : String) (detail : Option String) :
    Keeps ExportState.core (say request text detail) :=
  fun _ => rfl

theorem keeps_progress (value : Progress) : Keeps ExportState.core (progress request value) :=
  fun _ => rfl

theorem keeps_record (error : ExportError) : Keeps ExportState.core (record request error) := by
  unfold record
  split
  · exact .throw error
  · exact .bind (keeps_tell request _) fun _ => .modify fun _ => rfl

theorem keeps_attempt {ε : Type} (change : FileTree → Except ε FileTree) (blame : ε → ExportError) :
    Keeps ExportState.core (attempt request change blame) := by
  unfold attempt
  refine .bind .get fun state => ?_
  split
  · exact .modify fun _ => rfl
  · exact keeps_record request _

theorem keeps_changingFiles {ε α : Type} (change : FileTree → FileTree × Except ε α) :
    Keeps ExportState.core (changingFiles change) :=
  .bind .get fun _ => .bind (.modify fun _ => rfl) fun _ => .pure _

theorem keeps_emptyWorkingDirectory :
    Keeps ExportState.core (emptyWorkingDirectory tool request) := by
  unfold emptyWorkingDirectory
  refine .bind (keeps_changingFiles _) fun created => ?_
  cases created with
  | error cause => exact keeps_record request _
  | ok =>
      refine .bind .get fun state => ?_
      dsimp only
      split
      · exact keeps_record request _
      · exact .forM fun entry => keeps_attempt request _ _

theorem keeps_copyResources : Keeps ExportState.core (copyResources tool request) :=
  .bind (keeps_say request _ _) fun _ => .bind .get fun _ => .forM fun _ =>
    .bind (keeps_say request _ _) fun _ => .bind (keeps_attempt request _ _) fun _ =>
      keeps_progress request _

theorem keeps_removeWorkingFile (name : String) :
    Keeps ExportState.core (removeWorkingFile tool request name) :=
  keeps_attempt request _ _

theorem keeps_packWorkingFiles : Keeps ExportState.core (packWorkingFiles tool request) := by
  unfold packWorkingFiles
  refine .bind .get fun state => ?_
  split
  · exact .throw _
  · refine .bind (keeps_changingFiles _) fun packed => ?_
    cases packed with
    | error cause => exact .throw _
    | ok => exact .forM fun name => keeps_removeWorkingFile tool request name

theorem keeps_writeDescriptor : Keeps ExportState.core (writeDescriptor tool request) :=
  .bind (keeps_say request _ _) fun _ => .bind .get fun _ =>
    .bind (keeps_attempt request _ _) fun _ => .bind (keeps_progress request _) fun _ =>
      .bind (keeps_say request _ _) fun _ => .bind (keeps_attempt request _ _) fun _ =>
        .bind (keeps_removeWorkingFile tool request _) fun _ => keeps_progress request _

theorem keeps_copyPlatformFiles : Keeps ExportState.core (copyPlatformFiles tool request) := by
  unfold copyPlatformFiles
  refine .bind (keeps_say request _ _) fun _ => ?_
  have files : Keeps ExportState.core (do
      (platformFiles tool request.options (← get).project).forM (copyPlatformFile tool request)
      progress request (.percent 95)) :=
    .bind .get fun _ => .bind (.forM fun _ => keeps_attempt request _ _) fun _ =>
      keeps_progress request _
  split
  · exact .bind (keeps_say request _ _) fun _ => files
  · exact files

theorem keepsJobs_of_core {α : Type} {part : ExportM α} (keeps : Keeps ExportState.core part) :
    Keeps ExportState.jobs part :=
  keeps.of_observed ExportCore.jobs

theorem keepsJobs_exportFile (name : String) :
    Keeps ExportState.jobs (exportFile tool request name) := by
  unfold exportFile
  refine .bind .get fun state => ?_
  split
  · exact .bind (.modify fun _ => rfl) fun _ => .modify fun _ => rfl
  · exact keepsJobs_of_core (keeps_record request _)

theorem keepsJobs_packageVerbatim : Keeps ExportState.jobs (packageVerbatim tool request) := by
  unfold packageVerbatim
  refine .bind .get fun state => ?_
  split
  · exact .throw _
  · exact .forM fun name => keepsJobs_exportFile tool request name

def joinExecutable : ExportM Unit := do
  let executable := request.options.output.child (← get).project.windowsName
  let archive := tool.workingDirectory.child archiveName
  let parts := [tool.settings.stubFile, tool.settings.stubSettingsFile, archive]
  match ← changingFiles fun files => Package.concatenate files executable parts with
  | .error cause => record request (.notPackaged executable false cause)
  | .ok skipped =>
      addArtifact executable
      skipped.forM fun cause => record request (.notPackaged cause.path false cause)

theorem keepsJobs_packageCompressed :
    Keeps ExportState.jobs (packageCompressed tool request) := by
  have joins : Keeps ExportState.jobs (joinExecutable tool request) := by
    refine .bind .get fun state => ?_
    dsimp only
    refine .bind (keepsJobs_of_core (keeps_changingFiles _)) fun joined => ?_
    cases joined with
    | error cause => exact keepsJobs_of_core (keeps_record request _)
    | ok skipped =>
        exact .bind (.modify fun _ => rfl) fun _ =>
          .forM fun _ => keepsJobs_of_core (keeps_record request _)
  unfold packageCompressed
  refine .bind (keepsJobs_of_core (keeps_say request _ _)) fun _ => ?_
  refine .bind (keepsJobs_of_core (keeps_changingFiles _)) fun archived => ?_
  cases archived with
  | error cause =>
      exact .bind (keepsJobs_of_core (keeps_record request _)) fun _ => joins
  | ok => exact joins

theorem keepsJobs_package : Keeps ExportState.jobs (package tool request) := by
  unfold package
  have rest : Keeps ExportState.jobs (
      if request.options.isCompressed then packageCompressed tool request
      else packageVerbatim tool request) := by
    split
    · exact keepsJobs_packageCompressed tool request
    · exact keepsJobs_packageVerbatim tool request
  refine .bind (keepsJobs_of_core (keeps_changingFiles _)) fun created => ?_
  cases created with
  | error cause => exact .bind (keepsJobs_of_core (keeps_record request _)) fun _ => rest
  | ok => exact rest

def obligingTool : ExportTool where
  settings := .withBase ⟨"/base"⟩
  workingDirectory := ⟨"/work"⟩
  extensions := ⟨[]⟩
  write := fun _ _ _ => .ok ""
  pack := Container.pack
  archive := fun files _ _ => (files, .ok ())
  compiler := fun call _ files => .ended ((files.write call.output []).toOption.getD files) (.ok ())

end GameExport
