import GameExport.Proofs.Export.Enduring
import GameExport.Proofs.Inclusion.Answer

/-! # What compiling the units leaves

Every unit that a game is linked from is compiled by a job of its own, the worker works on that job
and on nothing else, and its object is there right after it. Main statement: a stage that compiles
all units without ending the export leaves exactly the objects of those units.
-/

namespace GameExport

open ExportM

/-- A unit whose object a game is linked from: a scene, a sheet that is compiled for one scene
alone, or a native source file that a scene or a sheet needs. -/
inductive Project.Linked (project : Project) : UnitName → Prop
  | scene {scene : Scene} (declared : scene ∈ project.scenes) : Linked project (.scene scene.name)
  | sheet {sheet : ExternalEvents} {scene : String} (declared : sheet ∈ project.externalEvents)
      (own : project.inclusionAnalysis.soleUser? sheet.name = some scene) :
      Linked project (.externalEvents sheet.name)
  | source {unit : UnitName} {events : List Event} {name : String}
      (body : project.HasEvents unit events)
      (reaches : project.Reaches unit (.sourceFile name)) : Linked project (.sourceFile name)

variable (tool : ExportTool) (request : ExportRequest)

/-- The job was submitted when no other job was there, and the worker has worked on it until it
had ended. -/
def SubmittedJob.Ran (record : SubmittedJob) : Prop :=
  ∃ (workshop : Workshop) (notes : List Activity), workshop.queue.IsEmpty ∧
    record.ended = awaited tool request (workshop.submit record.job) ∧
    record.ended.isIdle = true ∧ record.job.Notes notes ∧
    record.ended.workshop.queue.history = workshop.queue.history ++ notes

/-- The job has compiled a unit, and its object was there right after it. -/
structure SubmittedJob.Made (record : SubmittedJob) (unit : UnitName) : Prop where
  compiles : record.job.call.kind = .compile
  ofUnit : record.job.unit = some unit
  output : record.job.call.output = UnitFiles.objectPath unit tool.settings.generatedDirectory
  ran : record.Ran tool request
  present : record.ended.workshop.world.files.pathExists record.job.call.output = true

def ExportState.OnlyCompiles (state : ExportState) : Prop :=
  ∀ record ∈ state.jobs, record.job.call.kind = .compile

/-- All jobs have made an object of a unit that is to be linked, and at least those of the units
that are done. -/
structure Compilation.IsMade (done : UnitName → Prop) (compilation : Compilation) : Prop where
  outline : compilation.project.outline = request.project.outline
  queue : compilation.queue.IsEmpty
  objects : compilation.objects = compilation.jobs.map fun record => record.job.call.output
  made : ∀ record ∈ compilation.jobs,
    ∃ unit, request.project.Linked unit ∧ record.Made tool request unit
  complete : ∀ unit, done unit → ∃ record ∈ compilation.jobs, record.Made tool request unit

def ExportState.Compiled (done : UnitName → Prop) (state : ExportState) : Prop :=
  state.compilation.IsMade tool request done ∧ ∀ name ∈ state.sources, done (.sourceFile name)

variable {tool request} {done : UnitName → Prop}

theorem Compilation.IsMade.mono {compilation : Compilation} {less : UnitName → Prop}
    (made : compilation.IsMade tool request done) (fewer : ∀ unit, less unit → done unit) :
    compilation.IsMade tool request less :=
  { made with complete := fun unit isDone => made.complete unit (fewer unit isDone) }

theorem Compilation.IsMade.onlyCompiles {state : ExportState}
    (made : state.compilation.IsMade tool request done) : state.OnlyCompiles := by
  intro record member
  rcases made.made record member with ⟨unit, _, isMade⟩
  exact isMade.compiles

theorem Compilation.IsMade.append {compilation : Compilation} {record : SubmittedJob}
    {unit : UnitName} {queue : Queue} (made : compilation.IsMade tool request done)
    (isMade : record.Made tool request unit) (linked : request.project.Linked unit)
    (empty : queue.IsEmpty) :
    { compilation with
      queue := queue
      jobs := compilation.jobs ++ [record]
      objects := compilation.objects ++ [record.job.call.output] }.IsMade tool request
        fun other => done other ∨ other = unit := by
  refine ⟨made.outline, empty, ?_, ?_, ?_⟩
  · simp [made.objects]
  · intro other member
    rcases List.mem_append.mp member with member | member
    · exact made.made other member
    · rw [List.mem_singleton.mp member]
      exact ⟨unit, linked, isMade⟩
  · intro other isDone
    rcases isDone with isDone | rfl
    · rcases made.complete other isDone with ⟨earlier, member, isMade⟩
      exact ⟨earlier, List.mem_append_left _ member, isMade⟩
    · exact ⟨record, by simp, isMade⟩

theorem meets_of_keeps {part : ExportM Unit} (keeps : Keeps ExportState.core part)
    (sources : NameSet) :
    Meets (fun state => state.compilation.IsMade tool request done ∧ state.sources = sources) part
      (fun _ state => state.compilation.IsMade tool request done ∧ state.sources = sources)
      fun _ state => state.OnlyCompiles :=
  (keepsCompilation_of_core keeps).meets
    (fun compilation => compilation.IsMade tool request done ∧ compilation.sources = sources)
    fun _ _ holds => holds.1.onlyCompiles

theorem compiled_of_keeps {α : Type} {part : ExportM α} (keeps : Keeps ExportState.core part) :
    Meets (fun state => state.Compiled tool request done) part
      (fun _ state => state.Compiled tool request done) fun _ state => state.OnlyCompiles :=
  (keepsCompilation_of_core keeps).meets
    (fun compilation => compilation.IsMade tool request done ∧
      ∀ name ∈ compilation.sources, done (.sourceFile name))
    fun _ _ holds => holds.1.onlyCompiles

/-! ## One job -/

theorem meets_submitAndWait (tool : ExportTool) {job : Job} {start : ExportState}
    (empty : start.workshop.queue.IsEmpty) (sameToken : job.token = request.token) :
    Meets (fun state => state = start) (submitAndWait tool request job)
      (fun _ state => ∃ ended : Workshop.WaitEnd, SubmittedJob.Ran tool request ⟨job, ended⟩ ∧
        ended.workshop.queue.IsEmpty ∧
        state = (start.submitted ⟨job, ended⟩).resumed ended)
      fun _ state => state.jobs = start.jobs ∨
        ∃ ended : Workshop.WaitEnd, state.jobs = start.jobs ++ [⟨job, ended⟩] := by
  apply meets_get_bind
  intro state same
  subst same
  dsimp only
  split
  · apply meets_throw_bind
    intro _ same
    exact .inl (by rw [same])
  · rename_i unfired
    have unfired : state.workshop.world.hasFired job.token = false := by
      rw [sameToken]
      simpa using unfired
    apply meets_modify_bind
    apply meets_resume
    · intro idle _ same
      subst same
      rcases Workshop.wait_submit empty unfired sameToken.symm idle with ⟨nothing, notes, noted⟩
      exact ⟨_, ⟨state.workshop, notes, empty, rfl, idle, noted⟩, nothing, rfl⟩
    · intro _ _ same
      subst same
      exact .inr ⟨_, rfl⟩

theorem meets_compile {files : UnitFiles} {job : Job} {start : ExportState}
    (made : start.compilation.IsMade tool request done)
    (compiles : job.call.kind = .compile) (unit : job.unit = some files.unit)
    (output : job.call.output = files.object)
    (object : files.object = UnitFiles.objectPath files.unit tool.settings.generatedDirectory)
    (sameToken : job.token = request.token) (linked : request.project.Linked files.unit) :
    Meets (fun state => state = start)
      (do
        submitAndWait tool request job
        takeObject files)
      (fun _ state =>
        state.compilation.IsMade tool request (fun other => done other ∨ other = files.unit) ∧
          state.sources = start.sources)
      fun _ state => state.OnlyCompiles := by
  have onlyCompiles : ∀ ended, ∀ record ∈ start.jobs ++ [⟨job, ended⟩],
      record.job.call.kind = .compile := by
    intro ended record member
    rcases List.mem_append.mp member with member | member
    · exact made.onlyCompiles record member
    · rw [List.mem_singleton.mp member]
      exact compiles
  have submitted := meets_submitAndWait tool made.queue sameToken
  apply Meets.bind (submitted.weaken (fun _ => id) (fun _ _ => id) ?_)
  · intro _
    apply meets_get_bind
    intro state holds
    rcases holds with ⟨ended, ran, empty, rfl⟩
    split
    · rename_i present
      apply Meets.set
      intro _ _
      have isMade : SubmittedJob.Made tool request ⟨job, ended⟩ files.unit :=
        ⟨compiles, unit, output.trans object, ran, output ▸ present⟩
      have appended := made.append isMade linked empty
      rw [output] at appended
      exact ⟨appended, rfl⟩
    · apply Meets.throw
      intro _ same
      rw [same]
      exact onlyCompiles ended
  · intro _ state failed
    rcases failed with same | ⟨ended, same⟩
    · rw [ExportState.OnlyCompiles, same]
      exact made.onlyCompiles
    · rw [ExportState.OnlyCompiles, same]
      exact onlyCompiles ended

theorem meets_compileEvents {project : Project} {compiled : NameSet} {unit : UnitName}
    (linked : request.project.Linked unit) :
    Meets (fun state => state.Compiled tool request done)
      (compileEvents tool request project compiled unit)
      (fun _ state => state.Compiled tool request fun other => done other ∨ other = unit)
      fun _ state => state.OnlyCompiles := by
  apply Meets.of_start
  intro start holds
  rcases holds with ⟨made, covered⟩
  apply Meets.imp (meets_compile made rfl rfl rfl rfl rfl linked)
  intro _ state holds
  rcases holds with ⟨made, same⟩
  exact ⟨made, fun name met => .inl (covered name (same ▸ met))⟩

theorem meets_sourceJob {files : UnitFiles} {start : ExportState}
    (made : start.compilation.IsMade tool request done)
    (object : files.object = UnitFiles.objectPath files.unit tool.settings.generatedDirectory)
    (linked : request.project.Linked files.unit) :
    Meets (fun state => state = start)
      (do
        submitAndWait tool request (sourceJob request files)
        takeObject files)
      (fun _ state =>
        state.compilation.IsMade tool request (fun other => done other ∨ other = files.unit) ∧
          state.sources = start.sources)
      fun _ state => state.OnlyCompiles :=
  meets_compile made rfl rfl rfl object rfl linked

theorem Project.Linked.declares {project : Project} {unit : UnitName}
    (linked : project.Linked unit) : project.Declares unit := by
  cases linked with
  | scene declared => exact .scene declared
  | sheet declared own => exact .sheet declared
  | source body reaches =>
      rcases Relation.reflTransGen_iff_eq_or_transGen.mp reaches with same | chain
      · rw [same]
        exact body.declares
      · exact (Project.declares_of_transGen chain).2

theorem object_sourceUnit (project : Project) (source : SourceFile) (generated : Path) :
    (project.sourceUnit source generated).object =
      UnitFiles.objectPath (.sourceFile source.name) generated := by
  rw [Project.sourceUnit, UnitFiles.native]

theorem meets_compileSource {name : String} {start : ExportState}
    (made : start.compilation.IsMade tool request done)
    (linked : request.project.Linked (.sourceFile name)) :
    Meets (fun state => state = start) (compileSource tool request name)
      (fun _ state => state.compilation.IsMade tool request
          (fun other => done other ∨ other = .sourceFile name) ∧ state.sources = start.sources)
      fun _ state => state.OnlyCompiles := by
  rcases Project.nativeSource?_of_declares linked.declares with ⟨source, found, rfl⟩
  rw [← Project.nativeSource?_of_outline made.outline] at found
  change start.project.nativeSource? source.name = some source at found
  apply meets_get_bind
  intro state same
  subst same
  dsimp only
  rw [found]
  apply Meets.bind ((meets_of_keeps (keeps_say request _ _) state.sources).start ⟨made, rfl⟩)
  intro _
  apply Meets.of_start
  intro later holds
  rcases holds with ⟨made, same⟩
  rw [← same]
  exact meets_sourceJob made (object_sourceUnit state.project source _) linked

theorem Compilation.IsMade.withSources {compilation : Compilation} (sources : NameSet)
    (made : compilation.IsMade tool request done) :
    { compilation with sources := sources }.IsMade tool request done :=
  ⟨made.outline, made.queue, made.objects, made.made, made.complete⟩

theorem meets_compileNewSource {name : String}
    (linked : request.project.Linked (.sourceFile name)) :
    Meets (fun state => state.Compiled tool request done)
      (do
        unless name ∈ (← get).sources do
          modify fun state => { state with sources := state.sources.insert name }
          compileSource tool request name)
      (fun _ state => state.Compiled tool request fun unit => done unit ∨ unit = .sourceFile name)
      fun _ state => state.OnlyCompiles := by
  apply meets_get_bind
  intro start holds
  rcases holds with ⟨made, covered⟩
  split
  · rename_i known
    apply Meets.pure
    intro state same
    subst same
    have nothingNew : ∀ unit, done unit ∨ unit = .sourceFile name → done unit := by
      rintro unit (isDone | rfl)
      · exact isDone
      · exact covered name known
    exact ⟨made.mono nothingNew, fun other met => .inl (covered other met)⟩
  · apply meets_modify_bind
    have made : ExportState.compilation { start with sources := start.sources.insert name }
        |>.IsMade tool request done := made.withSources _
    apply Meets.imp (meets_compileSource made linked)
    intro _ state holds
    rcases holds with ⟨made, same⟩
    refine ⟨made, fun other met => ?_⟩
    rw [same, NameSet.mem_insert] at met
    rcases met with rfl | met
    · exact .inr rfl
    · exact .inl (covered other met)

theorem ExportState.Compiled.congr {state : ExportState} {others : UnitName → Prop}
    (compiled : state.Compiled tool request done) (same : ∀ unit, done unit ↔ others unit) :
    state.Compiled tool request others :=
  ⟨compiled.1.mono fun unit => (same unit).mpr,
    fun name met => (same _).mp (compiled.2 name met)⟩

/-! ## Loops -/

/-- If each part of a loop has its units done and shows a fact, then all units are done after the
loop, and all facts hold. -/
theorem meets_compileAll {α : Type} {items : List α} {part : α → ExportM PUnit}
    (adds : α → UnitName → Prop) (fact : α → Prop)
    (each : ∀ done, ∀ item ∈ items, Meets (fun state => state.Compiled tool request done)
      (part item) (fun _ state =>
        state.Compiled tool request (fun unit => done unit ∨ adds item unit) ∧ fact item)
      fun _ state => state.OnlyCompiles) :
    Meets (fun state => state.Compiled tool request done) (items.forM part)
      (fun _ state =>
        state.Compiled tool request (fun unit => done unit ∨ ∃ item ∈ items, adds item unit) ∧
          ∀ item ∈ items, fact item)
      fun _ state => state.OnlyCompiles := by
  induction items generalizing done with
  | nil =>
      apply Meets.pure
      intro state compiled
      exact ⟨compiled.congr (by simp), by simp⟩
  | cons item rest induction =>
      apply Meets.bind (each done item List.mem_cons_self)
      intro _
      apply Meets.of_start
      intro start holds
      rcases holds with ⟨compiled, first⟩
      have later := fun done item member => each done item (List.mem_cons_of_mem _ member)
      apply Meets.imp ((induction later).start compiled)
      intro _ state holds
      rcases holds with ⟨compiled, others⟩
      refine ⟨compiled.congr ?_, ?_⟩
      · intro unit
        simp [or_assoc]
      · intro other member
        rcases List.mem_cons.mp member with rfl | member
        · exact first
        · exact others other member

theorem meets_compileNewSources {names : NameSet}
    (linked : ∀ name ∈ names, request.project.Linked (.sourceFile name)) :
    Meets (fun state => state.Compiled tool request done) (compileNewSources tool request names)
      (fun _ state => state.Compiled tool request fun unit =>
        done unit ∨ ∃ name ∈ names.toList, unit = .sourceFile name)
      fun _ state => state.OnlyCompiles := by
  apply Meets.imp (meets_compileAll (fun name unit => unit = .sourceFile name) (fun _ => True) ?_)
  · intro _ _ holds
    exact holds.1
  · intro done name member
    apply Meets.imp (meets_compileNewSource (linked name member))
    intro _ _ compiled
    exact ⟨compiled, trivial⟩

/-! ## Scenes -/

theorem meets_requirementsOf {unit : UnitName} :
    Meets (fun state => state.Compiled tool request done)
      (requirementsOf request.project.inclusionAnalysis unit)
      (fun requirements state => state.Compiled tool request done ∧
        request.project.inclusionAnalysis.needs unit = .ok requirements)
      fun _ state => state.OnlyCompiles := by
  intro state compiled
  unfold requirementsOf
  cases answer : request.project.inclusionAnalysis.needs unit with
  | ok requirements => exact ⟨compiled, rfl⟩
  | error error => exact compiled.1.onlyCompiles

theorem lookup_ownSheets {project : Project} {analysis : InclusionAnalysis} {sheet : String} :
    (ownSheets project analysis).lookup sheet =
      if sheet ∈ project.externalEvents.map ExternalEvents.name then analysis.soleUser? sheet
      else none := by
  unfold ownSheets
  induction project.externalEvents with
  | nil => rfl
  | cons first rest induction =>
      rw [List.filterMap_cons, List.map_cons]
      by_cases same : sheet = first.name
      · subst same
        cases user : analysis.soleUser? first.name with
        | none =>
            rw [user] at induction
            simp [induction]
        | some scene => simp
      · cases user : analysis.soleUser? first.name with
        | none => simp [induction, same]
        | some scene => simp [induction, same, List.lookup_cons, beq_false_of_ne same]

inductive Project.CompiledFor (project : Project) (scene : String) : UnitName → Prop
  | scene : CompiledFor project scene (.scene scene)
  | sheet {sheet : ExternalEvents} (declared : sheet ∈ project.externalEvents)
      (own : project.inclusionAnalysis.soleUser? sheet.name = some scene) :
      CompiledFor project scene (.externalEvents sheet.name)
  | source {name : String} (reaches : project.Reaches (.scene scene) (.sourceFile name)) :
      CompiledFor project scene (.sourceFile name)

theorem InclusionAnalysis.mem_scenes_of_soleUser? {analysis : InclusionAnalysis}
    {sheet scene : String} (own : analysis.soleUser? sheet = some scene) :
    scene ∈ analysis.scenes ∧ analysis.usesOnlyAtTop sheet scene = true := by
  unfold soleUser? at own
  split at own
  · rename_i user users
    rw [Option.some.injEq] at own
    subst own
    apply List.mem_filter.mp
    rw [users]
    exact List.mem_singleton_self user
  · cases own

theorem InclusionAnalysis.mem_of_soleUser? {analysis : InclusionAnalysis} {sheet scene : String}
    {requirements : Requirements} (own : analysis.soleUser? sheet = some scene)
    (answered : analysis.needs (.scene scene) = .ok requirements) :
    sheet ∈ requirements.externalEvents := by
  have uses := (mem_scenes_of_soleUser? own).2
  rw [usesOnlyAtTop, answered] at uses
  simp only [Requirements.usesOnlyAtTop, Bool.and_eq_true, decide_eq_true_eq] at uses
  exact uses.1

theorem mem_sheetsFor {project : Project} {requirements : Requirements} {scene sheet : String}
    (answered : project.inclusionAnalysis.needs (.scene scene) = .ok requirements) :
    (sheet ∈ requirements.externalEvents.toList.filter fun sheet =>
        (ownSheets project project.inclusionAnalysis).lookup sheet == some scene) ↔
      project.CompiledFor scene (.externalEvents sheet) := by
  rw [List.mem_filter, beq_iff_eq, lookup_ownSheets, Option.ite_none_right_eq_some, List.mem_map]
  constructor
  · rintro ⟨_, ⟨declaration, declared, rfl⟩, own⟩
    exact .sheet declared own
  · intro due
    cases due with
    | sheet declared own =>
        exact ⟨InclusionAnalysis.mem_of_soleUser? own answered, ⟨_, declared, rfl⟩, own⟩

theorem Project.CompiledFor.linked {project : Project} {scene : Scene} {unit : UnitName}
    (declared : scene ∈ project.scenes) (due : project.CompiledFor scene.name unit) :
    project.Linked unit := by
  cases due with
  | scene => exact .scene declared
  | sheet declared own => exact .sheet declared own
  | source reaches => exact .source (.scene declared) reaches

theorem mem_sourceFiles {project : Project} {requirements : Requirements} {unit : UnitName}
    {events : List Event} {name : String} (body : project.HasEvents unit events)
    (answered : project.inclusionAnalysis.needs unit = .ok requirements) :
    name ∈ requirements.sourceFiles ↔ project.Reaches unit (.sourceFile name) := by
  have needed := (Project.of_needs_eq_ok answered).2.2 (.sourceFile name)
  have different : UnitName.sourceFile name ≠ unit := by
    cases body <;> simp
  exact needed.trans (and_iff_left different)

theorem ownSheets_of_outline {left right : Project} (same : left.outline = right.outline)
    (analysis : InclusionAnalysis) : ownSheets left analysis = ownSheets right analysis := by
  have names := Project.externalEvents_of_outline same
  have all := congrArg (List.filterMap fun name =>
    (analysis.soleUser? name).map fun scene => (name, scene)) names
  rw [List.filterMap_map, List.filterMap_map] at all
  exact all

theorem meets_compileScene {project : Project} {scene : Scene} {total place : Nat}
    (declared : scene ∈ request.project.scenes) :
    Meets (fun state => state.Compiled tool request done)
      (compileScene tool request project request.project.inclusionAnalysis
        (ownSheets request.project request.project.inclusionAnalysis) total (scene.name, place))
      (fun _ state => state.Compiled tool request
          (fun unit => done unit ∨ request.project.CompiledFor scene.name unit) ∧
        request.project.Acyclic (.scene scene.name))
      fun _ state => state.OnlyCompiles := by
  apply Meets.bind meets_requirementsOf
  intro requirements
  apply Meets.of_start
  intro start holds
  rcases holds with ⟨compiled, answered⟩
  -- What is compiled for the scene, in the order in which the function goes through it.
  have due : ∀ unit, request.project.CompiledFor scene.name unit ↔
      ((∃ name ∈ requirements.sourceFiles.toList, unit = .sourceFile name) ∨
        ∃ sheet ∈ requirements.externalEvents.toList.filter fun sheet =>
          (ownSheets request.project request.project.inclusionAnalysis).lookup sheet ==
            some scene.name, unit = .externalEvents sheet) ∨ unit = .scene scene.name := by
    intro unit
    constructor
    · intro due
      cases due with
      | scene => exact .inr rfl
      | sheet declared own =>
          exact .inl (.inr ⟨_, (mem_sheetsFor answered).mpr (.sheet declared own), rfl⟩)
      | source reaches =>
          exact .inl (.inl ⟨_, (mem_sourceFiles (.scene declared) answered).mpr reaches, rfl⟩)
    · rintro ((⟨name, met, rfl⟩ | ⟨sheet, member, rfl⟩) | rfl)
      · exact .source ((mem_sourceFiles (.scene declared) answered).mp met)
      · exact (mem_sheetsFor answered).mp member
      · exact .scene
  have linked : ∀ unit, request.project.CompiledFor scene.name unit → request.project.Linked unit :=
    fun _ => Project.CompiledFor.linked declared
  apply Meets.bind ((compiled_of_keeps (keeps_say request _ _)).start compiled)
  intro _
  apply Meets.bind (meets_compileNewSources fun name met =>
    linked _ ((due _).mpr (.inl (.inl ⟨name, met, rfl⟩))))
  intro _
  apply Meets.bind (meets_compileAll (fun sheet unit => unit = .externalEvents sheet)
    (fun _ => True) fun done sheet member => ?_)
  · intro _
    apply Meets.of_start
    intro later holds
    apply Meets.bind ((meets_compileEvents (linked _ .scene)).start holds.1)
    intro _
    apply Meets.bind (compiled_of_keeps (keeps_say request _ _))
    intro _
    apply Meets.imp (compiled_of_keeps (keeps_progress request _))
    intro _ state compiled
    refine ⟨compiled.congr fun unit => ?_, (Project.of_needs_eq_ok answered).2.1⟩
    simp only [due, or_assoc]
  · have isLinked := linked _ ((due _).mpr (.inl (.inr ⟨sheet, member, rfl⟩)))
    apply Meets.imp (meets_compileEvents isLinked)
    intro _ _ compiled
    exact ⟨compiled, trivial⟩

/-! ## All units -/

theorem Compilation.IsPrepared.compiled {state : ExportState}
    (prepared : state.compilation.IsPrepared request) :
    state.Compiled tool request fun _ => False := by
  rcases prepared with ⟨fresh, empty⟩
  have objects : state.objects = [] := fresh.objects
  have jobs : state.jobs = [] := fresh.jobs
  have sources : state.sources = .empty := fresh.sources
  refine ⟨⟨fresh.outline, empty, ?_, ?_, fun _ => False.elim⟩, ?_⟩
  · simp [ExportState.compilation, objects, jobs]
  · simp [ExportState.compilation, jobs]
  · simp [sources, NameSet.mem_def, NameSet.empty]

/-- No cycle can be reached from any scene or sheet. -/
def Project.IsAcyclic (project : Project) : Prop :=
  ∀ unit events, project.HasEvents unit events → project.Acyclic unit

theorem meets_compileSheet {sheet : ExternalEvents}
    (declared : sheet.name ∈ request.project.externalEvents.map ExternalEvents.name) :
    Meets (fun state => state.Compiled tool request done)
      (do
        let requirements ←
          requirementsOf request.project.inclusionAnalysis (.externalEvents sheet.name)
        compileNewSources tool request requirements.sourceFiles)
      (fun _ state => state.Compiled tool request (fun unit => done unit ∨
          ∃ name, request.project.Reaches (.externalEvents sheet.name) (.sourceFile name) ∧
            unit = .sourceFile name) ∧
        request.project.Acyclic (.externalEvents sheet.name))
      fun _ state => state.OnlyCompiles := by
  rcases List.mem_map.mp declared with ⟨declaration, declared, sameName⟩
  rw [← sameName]
  have body : request.project.HasEvents (.externalEvents declaration.name) declaration.events :=
    .sheet declared
  apply Meets.bind meets_requirementsOf
  intro requirements
  apply Meets.of_start
  intro start holds
  rcases holds with ⟨compiled, answered⟩
  have linked : ∀ name ∈ requirements.sourceFiles, request.project.Linked (.sourceFile name) :=
    fun name met => .source body ((mem_sourceFiles body answered).mp met)
  apply Meets.imp ((meets_compileNewSources linked).start compiled)
  intro _ state compiled
  refine ⟨compiled.congr fun unit => ?_, (Project.of_needs_eq_ok answered).2.1⟩
  simp only [← mem_sourceFiles body answered, NameSet.mem_def]

theorem exists_mem_map {α β : Type} {tell : α → β} {items : List α} {property : β → Prop} :
    (∃ value ∈ items.map tell, property value) ↔ ∃ item ∈ items, property (tell item) := by
  constructor
  · rintro ⟨_, member, holds⟩
    rcases List.mem_map.mp member with ⟨item, isItem, rfl⟩
    exact ⟨item, isItem, holds⟩
  · rintro ⟨item, member, holds⟩
    exact ⟨_, List.mem_map_of_mem member, holds⟩

/-- What is to be linked is what is compiled for a scene, and the source files that sheets need. -/
theorem Project.linked_iff {project : Project} {unit : UnitName} :
    project.Linked unit ↔
      (∃ scene ∈ project.scenes.map Scene.name, project.CompiledFor scene unit) ∨
        ∃ sheet ∈ project.externalEvents.map ExternalEvents.name,
          ∃ name, project.Reaches (.externalEvents sheet) (.sourceFile name) ∧
            unit = .sourceFile name := by
  constructor
  · intro linked
    cases linked with
    | scene declared => exact .inl ⟨_, List.mem_map_of_mem declared, .scene⟩
    | sheet declared own =>
        exact .inl ⟨_, (InclusionAnalysis.mem_scenes_of_soleUser? own).1, .sheet declared own⟩
    | source body reaches =>
        cases body with
        | scene declared => exact .inl ⟨_, List.mem_map_of_mem declared, .source reaches⟩
        | sheet declared => exact .inr ⟨_, List.mem_map_of_mem declared, _, reaches, rfl⟩
  · rintro (⟨_, member, due⟩ | ⟨_, member, name, reaches, rfl⟩)
    · rcases List.mem_map.mp member with ⟨scene, declared, rfl⟩
      exact due.linked declared
    · rcases List.mem_map.mp member with ⟨sheet, declared, rfl⟩
      exact .source (.sheet declared) reaches

theorem meets_compileLoops :
    Meets (fun state => state.Compiled tool request fun _ => False)
      (do
        let project := (← get).project
        compileLoops tool request project project.inclusionAnalysis)
      (fun _ state =>
        state.Compiled tool request request.project.Linked ∧ request.project.IsAcyclic)
      fun _ state => state.OnlyCompiles := by
  apply meets_get_bind
  intro start compiled
  have outline : start.project.outline = request.project.outline := compiled.1.outline
  have sheetNames := Project.externalEvents_of_outline outline
  rw [compileLoops, Project.inclusionAnalysis_of_outline outline, ownSheets_of_outline outline,
    show start.project.scenes.map (·.name) = request.project.scenes.map Scene.name from
      Project.scenes_of_outline outline]
  -- The places of the scenes are only told to the host, so it is enough to know the names.
  have placed := List.zipIdx_map_fst 1 (request.project.scenes.map Scene.name)
  generalize (request.project.scenes.map Scene.name).zipIdx 1 = items at placed ⊢
  apply Meets.bind ((meets_compileAll
    (fun item unit => request.project.CompiledFor item.1 unit)
    (fun item => request.project.Acyclic (.scene item.1)) ?_).start compiled)
  · intro _
    apply Meets.of_start
    intro later holds
    rcases holds with ⟨compiled, acyclicScenes⟩
    apply Meets.imp ((meets_compileAll
      (fun (sheet : ExternalEvents) unit =>
        ∃ name, request.project.Reaches (.externalEvents sheet.name) (.sourceFile name) ∧
          unit = .sourceFile name)
      (fun sheet => request.project.Acyclic (.externalEvents sheet.name)) ?_).start compiled)
    · intro _ state holds
      rcases holds with ⟨compiled, acyclicSheets⟩
      constructor
      · apply compiled.congr
        intro unit
        rw [Project.linked_iff, ← sheetNames, ← placed, exists_mem_map, exists_mem_map, false_or]
      · intro unit events body
        cases body with
        | scene declared =>
            have member := List.mem_map_of_mem (f := Scene.name) declared
            rw [← placed] at member
            rcases List.mem_map.mp member with ⟨item, member, same⟩
            rw [← same]
            exact acyclicScenes item member
        | sheet declared =>
            have member := List.mem_map_of_mem (f := ExternalEvents.name) declared
            rw [← sheetNames] at member
            rcases List.mem_map.mp member with ⟨sheet, member, same⟩
            rw [← same]
            exact acyclicSheets sheet member
    · intro done sheet member
      apply meets_compileSheet
      rw [← sheetNames]
      exact List.mem_map_of_mem member
  · intro done item member
    rcases item with ⟨name, place⟩
    have listed := List.mem_map_of_mem (f := Prod.fst) member
    rw [placed] at listed
    rcases List.mem_map.mp listed with ⟨scene, declared, rfl⟩
    exact meets_compileScene declared

theorem meets_openGenerated :
    Meets (fun state => state.compilation.IsPrepared request) (openGenerated tool request)
      (fun _ state => state.Compiled tool request fun _ => False)
      fun _ state => state.OnlyCompiles := by
  apply Meets.of_start
  intro start prepared
  apply meets_modify_bind
  have withoutProfilers : ExportState.compilation { start with
      project := { start.project with scenes := start.project.scenes.map Scene.withoutProfiler } }
        |>.IsPrepared request :=
    ⟨⟨(outline_withoutProfiler _).trans prepared.1.outline, prepared.1.sources,
      prepared.1.objects, prepared.1.jobs⟩, prepared.2⟩
  exact (compiled_of_keeps (keeps_makeGenerated tool request)).start withoutProfilers.compiled

/-- A stage that compiles all units without ending the export has made the object of every unit
that is to be linked, and then there is no cycle. -/
theorem meets_compileUnits :
    Meets (fun state => state.compilation.IsPrepared request) (compileUnits tool request)
      (fun _ state =>
        state.Compiled tool request request.project.Linked ∧ request.project.IsAcyclic)
      fun _ state => state.OnlyCompiles := by
  rw [compileUnits_eq]
  apply Meets.bind meets_openGenerated
  intro _
  exact meets_compileLoops

end GameExport
