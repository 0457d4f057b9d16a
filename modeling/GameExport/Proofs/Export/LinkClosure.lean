import GameExport.Proofs.Export.LinkGate
import GameExport.Proofs.Export.Shipping
import GameExport.Proofs.Generation.Declaring
import GameExport.Proofs.Generation.Inlining

/-! # What linked objects need of each other

What a generated source calls or depends on is told by its events, and what is compiled by the
analysis of inclusions. Main statement: once all units are compiled, every function that a generated
source calls and every source file that its code depends on has an object, and the game is linked
from all objects.
-/

namespace GameExport

open ExportM
open Relation (ReflTransGen TransGen)

/-! ## Projects of one outline -/

namespace Project

variable {left right project : Project}

theorem reaches_of_outline (same : left.outline = right.outline) :
    left.Reaches = right.Reaches := by
  funext unit other
  rw [Reaches, Reaches, leads_of_outline same]

theorem acyclic_of_outline (same : left.outline = right.outline) {unit : UnitName}
    (acyclic : left.Acyclic unit) : right.Acyclic unit := by
  intro member reaches
  rw [OnCycle, ← leads_of_outline same]
  rw [← reaches_of_outline same] at reaches
  exact acyclic member reaches

theorem Linked.of_outline (same : left.outline = right.outline) {unit : UnitName}
    (linked : left.Linked unit) : right.Linked unit := by
  cases linked with
  | scene declared =>
      have listed := List.mem_map_of_mem (f := Scene.name) declared
      rw [scenes_of_outline same] at listed
      rcases List.mem_map.mp listed with ⟨scene, member, sameName⟩
      exact sameName ▸ .scene member
  | sheet declared own =>
      have listed := List.mem_map_of_mem (f := ExternalEvents.name) declared
      rw [externalEvents_of_outline same] at listed
      rcases List.mem_map.mp listed with ⟨sheet, member, sameName⟩
      rw [inclusionAnalysis_of_outline same, ← sameName] at own
      exact sameName ▸ .sheet member own
  | source body reaches =>
      rcases hasEvents_of_outline same body with ⟨others, declared⟩
      rw [reaches_of_outline same] at reaches
      exact .source declared reaches

def separate (project : Project) : NameSet :=
  .ofList ((ownSheets project project.inclusionAnalysis).map (·.1))

/-- A unit whose source is generated: a scene, or a sheet that is compiled on its own. -/
inductive Generated (project : Project) : UnitName → Prop
  | scene {scene : Scene} (declared : scene ∈ project.scenes) :
      Generated project (.scene scene.name)
  | sheet {sheet : ExternalEvents} (declared : sheet ∈ project.externalEvents)
      (own : sheet.name ∈ project.separate) : Generated project (.externalEvents sheet.name)

theorem mem_separate {sheet : String} :
    sheet ∈ project.separate ↔ ∃ declaration ∈ project.externalEvents,
      declaration.name = sheet ∧
        ∃ scene, project.inclusionAnalysis.soleUser? sheet = some scene := by
  rw [separate, NameSet.mem_ofList, List.mem_map]
  simp only [ownSheets, List.mem_filterMap, Option.map_eq_some_iff]
  constructor
  · rintro ⟨_, ⟨declaration, member, scene, own, rfl⟩, rfl⟩
    exact ⟨declaration, member, rfl, scene, own⟩
  · rintro ⟨declaration, member, rfl, scene, own⟩
    exact ⟨_, ⟨declaration, member, scene, own, rfl⟩, rfl⟩

theorem Generated.linked {unit : UnitName} (generated : project.Generated unit) :
    project.Linked unit := by
  cases generated with
  | scene declared => exact .scene declared
  | sheet declared own =>
      rcases mem_separate.mp own with ⟨_, _, _, scene, own⟩
      exact .sheet declared own

theorem Generated.hasEvents {unit : UnitName} (generated : project.Generated unit) :
    ∃ events, project.HasEvents unit events := by
  cases generated with
  | scene declared => exact ⟨_, .scene declared⟩
  | sheet declared own => exact ⟨_, .sheet declared⟩

theorem Linked.generated {unit : UnitName} (linked : project.Linked unit)
    (notSource : ∀ name, unit ≠ .sourceFile name) : project.Generated unit := by
  cases linked with
  | scene declared => exact .scene declared
  | sheet declared own => exact .sheet declared (mem_separate.mpr ⟨_, declared, rfl, _, own⟩)
  | source body reaches => exact absurd rfl (notSource _)

end Project

variable (tool : ExportTool) (request : ExportRequest)

/-! ## The jobs that generate sources -/

/-- The job writes the source of a unit of a project, calling the sheets that are compiled on their
own, and compiles it. -/
structure Job.Generates (project : Project) (job : Job) (unit : UnitName) : Prop where
  ofUnit : job.unit = some unit
  generated : job.call.generated = true
  input : job.call.input =
    some (UnitFiles.generated unit tool.settings.generatedDirectory).source
  prepares : job.preparation = some (writeCode tool project project.separate
    (UnitFiles.generated unit tool.settings.generatedDirectory))

def Job.IsExpected (project : Project) (job : Job) : Prop :=
  (∃ name, job.unit = some (.sourceFile name) ∧ job.call.generated = false) ∨
    ∃ unit, (∀ name, unit ≠ .sourceFile name) ∧ job.Generates tool project unit

def ExportState.Serves (project : Project) (state : ExportState) : Prop :=
  state.project = project ∧ ∀ record ∈ state.jobs, record.job.IsExpected tool project

variable {tool request}

theorem enduring_serves (project : Project) :
    Enduring request (Job.IsExpected tool project) (ExportState.Serves tool project) where
  told := fun _ _ => id
  resumed := fun _ _ => id
  submitted := by
    intro state record expected serves
    refine ⟨serves.1, fun other member => ?_⟩
    rcases List.mem_append.mp member with member | member
    · exact serves.2 other member
    · exact List.mem_singleton.mp member ▸ expected
  taken := fun _ _ => id
  met := fun _ _ => id

theorem serves_compileUnits :
    Meets (fun state => state.jobs = []) (compileUnits tool request)
      (fun _ state => state.Serves tool state.project) fun _ _ => True := by
  rw [compileUnits_eq]
  have opens := (keepsJobs_openGenerated tool request).meets (fun jobs => jobs = [])
    fun (_ : ExportError) _ _ => trivial
  apply Meets.bind opens
  intro _
  apply meets_get_bind
  intro start noJobs
  -- There is no job yet, and from here on only such jobs are submitted.
  have serves : start.Serves tool start.project := ⟨rfl, by simp [noJobs]⟩
  have sources (files : UnitFiles) (name : String) (isSource : files.unit = .sourceFile name) :
      (sourceJob request files).IsExpected tool start.project :=
    .inl ⟨name, congrArg some isSource, rfl⟩
  have events (unit : UnitName) (notSource : ∀ name, unit ≠ .sourceFile name) :
      (eventsJob tool request start.project start.project.separate unit).IsExpected tool
        start.project :=
    .inr ⟨unit, notSource, rfl, rfl, rfl, rfl⟩
  have loops := (enduring_serves start.project).compileLoops sources events
  apply (loops.meets.start serves).imp
  intro _ state serves
  exact serves.1 ▸ serves

/-! ## What a generated source needs -/

variable (tool request) in
def ExportState.HasObject (state : ExportState) (unit : UnitName) : Prop :=
  ∃ record ∈ state.jobs, record.Made tool request unit ∧ record.job.call.output ∈ state.objects

variable (tool request) in
/-- All that the code of a source needs has been compiled: the sheets that it calls, which it also
declares, and the native source files on which it depends. -/
structure Generation.Source.IsLinkClosed (code : Source) (state : ExportState) : Prop where
  declares : code.DeclaresCalls
  called : ∀ sheet, code.Calls sheet → state.HasObject tool request (.externalEvents sheet)
  needed : ∀ text dependencies subEvents,
    code.Emits state.project (.code text dependencies subEvents) → ∀ name ∈ dependencies,
      (state.project.nativeSource? name).isSome = true →
        state.HasObject tool request (.sourceFile name)

theorem hasObject_of_linked {state : ExportState} {unit : UnitName}
    (made : state.compilation.IsMade tool request request.project.Linked)
    (linked : state.project.Linked unit) : state.HasObject tool request unit := by
  have same : state.project.outline = request.project.outline := made.outline
  rcases made.complete unit (linked.of_outline same) with ⟨record, member, isMade⟩
  have objects : state.objects = state.jobs.map fun record => record.job.call.output := made.objects
  refine ⟨record, member, isMade, ?_⟩
  rw [objects]
  exact List.mem_map_of_mem member

theorem Generation.mem_of_calls {project : Project} {compiled : NameSet} {unit : UnitName}
    {code : Source} (written : source project compiled unit = .ok code) {sheet : String}
    (calls : code.Calls sheet) : sheet ∈ compiled := by
  rcases (mem_body (of_source_eq_ok written).2).mp calls with ⟨home, _, item, member, own⟩
  cases item with
  | statement statement =>
      rw [ownStatements, List.mem_singleton] at own
      cases isOfEvent_of_mem (own ▸ member)
  | link target =>
      rcases mem_ownStatements_link.mp own with ⟨_, same⟩ | ⟨other, leads, same | same⟩
      · cases same
      · cases same.2
        exact (of_isCall leads same.1).2.1
      · rcases same.2 with same | same
        · cases same
        · cases same

/-- Once all units are compiled, the source of a unit has been generated with all that it needs. -/
theorem linkClosed_of_generated {state : ExportState} {unit : UnitName}
    (made : state.compilation.IsMade tool request request.project.Linked)
    (acyclic : request.project.IsAcyclic) (generated : state.project.Generated unit) :
    ∃ code, Generation.source state.project state.project.separate unit = .ok code ∧
      code.IsLinkClosed tool request state := by
  have same : state.project.outline = request.project.outline := made.outline
  rcases generated.hasEvents with ⟨events, declared⟩
  rcases Project.hasEvents_of_outline same declared with ⟨others, declaredToo⟩
  have free := (Project.acyclic_of_outline same.symm (acyclic unit others declaredToo)).loopFree
  rcases Generation.exists_source state.project.separate declared free with ⟨code, written⟩
  refine ⟨code, written, code.declaresCalls, ?_, ?_⟩
  · intro sheet calls
    rcases Project.mem_separate.mp (Generation.mem_of_calls written calls) with
      ⟨declaration, member, rfl, scene, own⟩
    exact hasObject_of_linked made (.sheet member own)
  · rintro text dependencies subEvents ⟨home, isHome, stands⟩ name needed native
    rcases Generation.of_source_eq_ok written with ⟨rfl, lines⟩
    have depends : DependencyStands name (Generation.eventsOf state.project home) :=
      dependencyStands_iff.mpr ⟨text, dependencies, subEvents, stands, needed⟩
    have leads : state.project.Leads home (.sourceFile name) :=
      ⟨true, .code (Project.hasEvents_eventsOf stands) depends
        (Generation.isSome_nativeSource?.mp native)⟩
    have reaches := Project.reaches_of_links (isHome.chain lines)
    exact hasObject_of_linked made (.source declared (reaches.tail leads))

/-! ## The link -/

theorem keepsCompilation_untilLinking (tool : ExportTool) (request : ExportRequest) :
    Keeps ExportState.compilation (goThrough tool request [.copyResources, .stripAndEncrypt]) := by
  have strips : Keeps ExportState.core (stripAndEncrypt tool request) :=
    .bind (keeps_writeDescriptor tool request) fun _ =>
      .bind (keeps_say request _ _) fun _ => keeps_packWorkingFiles tool request
  have copies := keepsCompilation_of_core (keeps_copyResources tool request)
  exact .bind (.bind (keepsCompilation_enter _) fun _ => copies) fun _ =>
    .bind (.bind (keepsCompilation_enter _) fun _ => keepsCompilation_of_core strips) fun _ =>
      .pure _

theorem meets_afterCompiling {compiled : ExportState} (empty : compiled.workshop.queue.IsEmpty) :
    Meets (fun state => state = compiled)
      (goThrough tool request
        [.copyResources, .stripAndEncrypt, .link, .copyPlatformFiles, .package, .done])
      (fun _ => LinksObjects compiled.compilation)
      fun _ state => state.jobs = compiled.jobs ∨ LinksObjects compiled.compilation state := by
  have stages : goThrough tool request
      [.copyResources, .stripAndEncrypt, .link, .copyPlatformFiles, .package, .done] = (do
        goThrough tool request [.copyResources, .stripAndEncrypt]
        afterPacking tool request) := by
    rw [afterPacking, ← goThrough_append]
    rfl
  have kept : Meets (fun state => state.compilation = compiled.compilation)
      (goThrough tool request [.copyResources, .stripAndEncrypt])
      (fun _ state => state.compilation = compiled.compilation)
      fun _ state => state.jobs = compiled.jobs ∨ LinksObjects compiled.compilation state :=
    (keepsCompilation_untilLinking tool request).meets
      (fun compilation => compilation = compiled.compilation)
      fun _ _ same => .inl (congrArg Compilation.jobs same)
  rw [stages]
  apply Meets.bind (kept.start rfl)
  intro _
  exact meets_afterPacking empty

/-! ## The whole export -/

theorem prepared_untilCompiling :
    Meets (fun state => state.compilation.IsStart request) (untilCompiling tool request)
      (fun _ state => state.compilation.IsPrepared request) fun _ state => state.OnlyCompiles := by
  have prepares : Meets (fun state => state.compilation.IsStart request)
      (workOf tool request .prepareResources) (fun _ state => state.compilation.IsPrepared request)
      fun _ state => state.OnlyCompiles :=
    (meets_prepareResources tool request).weaken (fun _ => id) (fun _ _ => id)
      fun _ _ => onlyCompiles_of_jobs
  apply Meets.bind (start_of_keeps (keeps_say request _ _))
  intro _
  apply Meets.bind (meets_stage meets_validateTargets)
  intro _
  apply Meets.bind ((meets_stage prepares).weaken (fun _ => And.left) (fun _ _ => id) fun _ _ => id)
  intro _
  exact .pure fun _ => id

theorem compiled_goThrough :
    Meets (fun state => state.compilation.IsPrepared request)
      (goThrough tool request [.compileUnits])
      (fun _ state =>
        state.Compiled tool request request.project.Linked ∧ request.project.IsAcyclic)
      fun _ state => state.OnlyCompiles := by
  apply Meets.bind (meets_stage meets_compileUnits)
  intro _
  exact .pure fun _ => id

theorem serves_goThrough :
    Meets (fun state => state.jobs = []) (goThrough tool request [.compileUnits])
      (fun _ state => state.Serves tool state.project) fun _ _ => True := by
  have enters : Meets (fun state => state.jobs = []) (enter .compileUnits)
      (fun _ state => state.jobs = []) fun _ _ => True := .modify fun _ => id
  apply Meets.bind (Meets.bind enters fun _ => serves_compileUnits)
  intro _
  exact .pure fun _ => id

/-- After compiling, an export submits no job but the one that links all objects. -/
theorem links_of_compiled {workshop : Workshop} {prepared compiled : ExportState}
    (empty : compiled.workshop.queue.IsEmpty)
    (prepares : (untilCompiling tool request).run.run (.initial workshop request.project) =
      (.ok (), prepared))
    (compiles : (goThrough tool request [.compileUnits]).run.run prepared = (.ok (), compiled)) :
    let final := ((exportStages tool request).run.run (.initial workshop request.project)).2
    final.jobs = compiled.jobs ∨ LinksObjects compiled.compilation final := by
  have rest : Meets _ (goThrough tool request
      [.copyResources, .stripAndEncrypt, .link, .copyPlatformFiles, .package, .done]) _ _ :=
    meets_afterCompiling empty
  rw [run_exportStages prepares compiles]
  cases ran : (goThrough tool request [.copyResources, .stripAndEncrypt, .link,
      .copyPlatformFiles, .package, .done]).run.run compiled with
  | mk result final =>
      cases result with
      | ok => exact .inr (rest.of_ok rfl ran)
      | error error => exact rest.of_error rfl ran

theorem objects_of_links {compiled final : ExportState} (onlyCompiles : compiled.OnlyCompiles)
    (outcome : final.jobs = compiled.jobs ∨ LinksObjects compiled.compilation final) :
    ∀ record ∈ final.jobs, record.job.call.kind = .link →
      record.job.call.objects = compiled.objects := by
  intro record member isLink
  have different (earlier : record ∈ compiled.jobs) : False := by
    have compiles := onlyCompiles record earlier
    rw [isLink] at compiles
    cases compiles
  rcases outcome with same | ⟨last, _, objects, jobs⟩
  · exact (different (same ▸ member)).elim
  · rw [jobs] at member
    rcases List.mem_append.mp member with earlier | member
    · exact (different earlier).elim
    · exact List.mem_singleton.mp member ▸ objects

/-- What a game is linked from is closed. Once all units are compiled, each of the generated sources
is that of a scene or of a sheet that is compiled on its own, and all of these have one. Each
function that a generated source calls is declared in it, once and with no other one, and has an
object, as has every native source file on which its code depends; and if the game is linked, then
from all objects. -/
theorem exportGame_linkCloses (tool : ExportTool) (request : ExportRequest) (workshop : Workshop)
    (balanced : workshop.queue.Balanced)
    (writes : ∀ project unit compiled code,
      Generation.generate project unit compiled = .ok code →
        tool.write project unit compiled = .ok code)
    {prepared compiled : ExportState}
    (prepares : (untilCompiling tool request).run.run (.initial workshop request.project) =
      (.ok (), prepared))
    (compiles : (goThrough tool request [.compileUnits]).run.run prepared = (.ok (), compiled)) :
    compiled.project.outline = request.project.outline ∧
    (∀ unit, compiled.project.Generated unit →
      ∃ record ∈ compiled.jobs, record.job.Generates tool compiled.project unit) ∧
    (∀ record ∈ compiled.jobs, record.job.call.generated = true → ∃ unit code,
      compiled.project.Generated unit ∧ record.job.Generates tool compiled.project unit ∧
        Generation.source compiled.project compiled.project.separate unit = .ok code ∧
        tool.write compiled.project unit compiled.project.separate = .ok code.text ∧
        code.IsLinkClosed tool request compiled) ∧
    ∀ record ∈ ((exportStages tool request).run.run (.initial workshop request.project)).2.jobs,
      record.job.call.kind = .link → record.job.call.objects = compiled.objects := by
  have isStart : (ExportState.initial workshop request.project).compilation.IsStart request :=
    ⟨⟨rfl, rfl, rfl, rfl⟩, balanced⟩
  have isPrepared := prepared_untilCompiling.of_ok isStart prepares
  rcases compiled_goThrough.of_ok isPrepared compiles with ⟨⟨made, _⟩, acyclic⟩
  have serves := serves_goThrough.of_ok isPrepared.1.jobs compiles
  refine ⟨made.outline, ?_, ?_, ?_⟩
  · intro unit generated
    rcases hasObject_of_linked made generated.linked with ⟨record, member, isMade, _⟩
    refine ⟨record, member, ?_⟩
    rcases serves.2 record member with ⟨name, isSource, _⟩ | ⟨other, _, generates⟩
    · rw [isMade.ofUnit, Option.some.injEq] at isSource
      subst isSource
      cases generated
    · have same := isMade.ofUnit.symm.trans generates.ofUnit
      rw [Option.some.injEq] at same
      exact same ▸ generates
  · intro record member isGenerated
    rcases serves.2 record member with ⟨name, _, plain⟩ | ⟨unit, notSource, generates⟩
    · rw [isGenerated] at plain
      cases plain
    · -- The unit whose object the job has made is the one whose code it writes: its own.
      rcases made.made record member with ⟨other, linked, isMade⟩
      have same := isMade.ofUnit.symm.trans generates.ofUnit
      rw [Option.some.injEq] at same
      subst same
      have generated := (linked.of_outline made.outline.symm).generated notSource
      rcases linkClosed_of_generated made acyclic generated with ⟨code, written, closed⟩
      have code_eq : Generation.generate compiled.project other compiled.project.separate =
          .ok code.text := by
        rw [Generation.generate, written]
        rfl
      exact ⟨other, code, generated, generates, written, writes _ _ _ _ code_eq, closed⟩
  · exact objects_of_links made.onlyCompiles (links_of_compiled made.queue prepares compiles)

variable (tool request) in
def setOut : ExportM Unit := do
  enter .compileUnits
  openGenerated tool request

theorem goThrough_compileUnits :
    goThrough tool request [.compileUnits] = (do
      setOut tool request
      let project := (← get).project
      compileLoops tool request project project.inclusionAnalysis) := by
  unfold goThrough setOut
  simp only [List.forM_eq_forM, List.forM_cons, List.forM_nil, workOf, compileUnits_eq,
    bind_assoc, bind_pure_unit]

theorem run_get_bind (next : ExportState → ExportM Unit) (state : ExportState) :
    (get >>= next).run.run state = (next state).run.run state := rfl

theorem run_compileUnits_of_opened {prepared opened : ExportState} {analysis : InclusionAnalysis}
    (opens : (setOut tool request).run.run prepared = (.ok (), opened))
    (analyzed : opened.project.inclusionAnalysis = analysis) :
    (goThrough tool request [.compileUnits]).run.run prepared =
      (compileLoops tool request opened.project analysis).run.run opened := by
  rw [goThrough_compileUnits, run_bind, opens]
  dsimp only
  rw [run_get_bind, analyzed]

theorem run_compileUnits {prepared opened compiled : ExportState} {analysis : InclusionAnalysis}
    (opens : (setOut tool request).run.run prepared = (.ok (), opened))
    (analyzed : opened.project.inclusionAnalysis = analysis)
    (loops : (compileLoops tool request opened.project analysis).run.run opened =
      (.ok (), compiled)) :
    (goThrough tool request [.compileUnits]).run.run prepared = (.ok (), compiled) :=
  (run_compileUnits_of_opened opens analyzed).trans loops

theorem run_exportStages_of_opened {workshop : Workshop} {prepared opened : ExportState}
    {analysis : InclusionAnalysis}
    (prepares : (untilCompiling tool request).run.run (.initial workshop request.project) =
      (.ok (), prepared))
    (opens : (setOut tool request).run.run prepared = (.ok (), opened))
    (analyzed : opened.project.inclusionAnalysis = analysis) :
    (exportStages tool request).run.run (.initial workshop request.project) = (do
      compileLoops tool request opened.project analysis
      goThrough tool request [.copyResources, .stripAndEncrypt, .link, .copyPlatformFiles,
        .package, .done]).run.run opened := by
  rw [exportStages_compiling, run_bind, prepares]
  dsimp only
  rw [run_bind, run_compileUnits_of_opened opens analyzed, ← run_bind]

/-! ## The game of the shop -/

def shopAnalysis : InclusionAnalysis where
  scenes := ["Level"]
  answers :=
    [(.scene "Level", .ok ⟨.empty, ⟨["Shop", "Till"], by decide⟩, ⟨["bank"], by decide⟩, .empty⟩),
      (.externalEvents "Shop", .ok ⟨.empty, ⟨["Till"], by decide⟩, ⟨["bank"], by decide⟩, .empty⟩),
      (.externalEvents "Till", .ok ⟨.empty, .empty, ⟨["bank"], by decide⟩, .empty⟩),
      (.sourceFile "bank", .ok .none)]

theorem inclusionAnalysis_shopGame :
    Generation.shopGame.inclusionAnalysis = shopAnalysis := by cbv

def shopTool : ExportTool :=
  { obligingTool with
    write := fun project unit compiled =>
      .ok (match Generation.generate project unit compiled with
        | .ok code => code
        | .error _ => "") }

def shopRequest : ExportRequest where
  project := Generation.shopGame
  options := ⟨⟨"/out"⟩, TargetSet.empty.insert .linux, false, false⟩
  caller := ⟨0, []⟩
  tokenId := 1
  react := fun _ world => world

def shopWorkshop : Workshop where
  world := ⟨⟨[(["work"], .directory), (["base"], .directory)], []⟩, []⟩
  queue := .idle ⟨"/log"⟩ none

def shopPrepared : ExportState :=
  stateAfter (untilCompiling shopTool shopRequest) (.initial shopWorkshop shopRequest.project)

def shopOpening : ExportM Unit := do
  enter .compileUnits
  openGenerated shopTool shopRequest

def shopOpened : ExportState := stateAfter shopOpening shopPrepared

def shopCompiled : ExportState :=
  stateAfter (compileLoops shopTool shopRequest shopOpened.project shopAnalysis) shopOpened

theorem prepares_shopGame :
    (untilCompiling shopTool shopRequest).run.run (.initial shopWorkshop shopRequest.project) =
      (.ok (), shopPrepared) :=
  run_eq_of_isOk (by decide +kernel)

theorem opens_shopGame : shopOpening.run.run shopPrepared = (.ok (), shopOpened) :=
  run_eq_of_isOk (by decide +kernel)

theorem outline_shopOpened : shopOpened.project.outline = Generation.shopGame.outline := by
  have isStart : (ExportState.initial shopWorkshop shopRequest.project).compilation.IsStart
      shopRequest := ⟨⟨rfl, rfl, rfl, rfl⟩, rfl⟩
  have prepared := prepared_untilCompiling.of_ok isStart prepares_shopGame
  have opens : Keeps (fun state => state.project.outline) shopOpening :=
    .bind (.modify fun _ => rfl) fun _ => keepsOutline_openGenerated shopTool shopRequest
  exact (opens shopPrepared).trans prepared.1.outline

theorem compiles_shopGame :
    (goThrough shopTool shopRequest [.compileUnits]).run.run shopPrepared =
      (.ok (), shopCompiled) := by
  have loops : (compileLoops shopTool shopRequest shopOpened.project shopAnalysis).run.run
      shopOpened = (.ok (), shopCompiled) := run_eq_of_isOk (by decide +kernel)
  refine run_compileUnits opens_shopGame ?_ loops
  rw [Project.inclusionAnalysis_of_outline outline_shopOpened, inclusionAnalysis_shopGame]

theorem mem_separate_shopGame {project : Project}
    (same : project.outline = Generation.shopGame.outline) : "Shop" ∈ project.separate := by
  have listed : "Shop" ∈ project.externalEvents.map ExternalEvents.name := by
    rw [Project.externalEvents_of_outline same]
    exact List.mem_cons_self
  rcases List.mem_map.mp listed with ⟨sheet, declared, sameName⟩
  refine Project.mem_separate.mpr ⟨sheet, declared, sameName, "Level", ?_⟩
  rw [Project.inclusionAnalysis_of_outline same, inclusionAnalysis_shopGame]
  decide +kernel

theorem calls_shopGame {project : Project} {code : Generation.Source}
    (same : project.outline = Generation.shopGame.outline)
    (written : Generation.source project project.separate (.scene "Level") = .ok code) :
    code.Calls "Shop" := by
  have scenes : (project.scenes.map Scene.name).Nodup := by
    rw [Project.scenes_of_outline same]
    decide
  have sheets : (project.externalEvents.map ExternalEvents.name).Nodup := by
    rw [Project.externalEvents_of_outline same]
    decide
  have leads : project.Leads (.scene "Level") (.externalEvents "Shop") := by
    have declared : ExternalEvents.mk "Shop" "" [.comment "sells", .link "Till"] ∈
        Generation.shopGame.externalEvents := List.mem_cons_self
    rw [Project.leads_of_outline same]
    exact ⟨true, .link Generation.hasEvents_shopGame (.direct List.mem_cons_self)
      (.sheet (.sheet declared))⟩
  rcases Generation.links_or_depends scenes sheets leads with
    ⟨target, stands, resolves⟩ | ⟨_, isSource, _⟩
  · cases resolves with
    | sheet declared =>
        have isCall : Generation.isCall project.separate (.scene "Level")
            (.externalEvents "Shop") = true := by
          simp [Generation.isCall, mem_separate_shopGame same]
        refine (Generation.mem_body (Generation.of_source_eq_ok written).2).mpr
          ⟨_, .inl rfl, _, Generation.link_mem_itemsOf.mpr stands, ?_⟩
        exact Generation.mem_ownStatements_link.mpr
          (.inr ⟨_, Project.linked?_eq_some.mpr (.sheet declared), .inl ⟨isCall, rfl⟩⟩)
  · cases isSource

/-- The sources of the level and of the shop are generated, and the level calls the shop. -/
theorem exportGame_linkCloses_shopGame :
    shopWorkshop.queue.Balanced ∧
    (∀ project unit compiled code, Generation.generate project unit compiled = .ok code →
      shopTool.write project unit compiled = .ok code) ∧
    (untilCompiling shopTool shopRequest).run.run (.initial shopWorkshop shopRequest.project) =
      (.ok (), shopPrepared) ∧
    (goThrough shopTool shopRequest [.compileUnits]).run.run shopPrepared = (.ok (), shopCompiled) ∧
    ∃ code, Generation.source shopCompiled.project shopCompiled.project.separate
        (.scene "Level") = .ok code ∧
      code.Calls "Shop" ∧ code.IsLinkClosed shopTool shopRequest shopCompiled := by
  have balanced : shopWorkshop.queue.Balanced := rfl
  have writes (project : Project) (unit : UnitName) (compiled : NameSet) (code : String)
      (given : Generation.generate project unit compiled = .ok code) :
      shopTool.write project unit compiled = .ok code := by
    simp only [shopTool, given]
  refine ⟨balanced, writes, prepares_shopGame, compiles_shopGame, ?_⟩
  rcases exportGame_linkCloses shopTool shopRequest shopWorkshop balanced writes prepares_shopGame
    compiles_shopGame with ⟨outline, generates, closed, _⟩
  have generated : shopCompiled.project.Generated (.scene "Level") := by
    have listed : "Level" ∈ shopCompiled.project.scenes.map Scene.name := by
      rw [Project.scenes_of_outline outline]
      exact List.mem_singleton_self _
    rcases List.mem_map.mp listed with ⟨scene, declared, same⟩
    exact same ▸ .scene declared
  rcases generates _ generated with ⟨record, member, makes⟩
  rcases closed record member makes.generated with ⟨unit, code, _, makesUnit, written, _, isClosed⟩
  have same := makes.ofUnit.symm.trans makesUnit.ofUnit
  rw [Option.some.injEq] at same
  subst same
  exact ⟨code, written, calls_shopGame outline written, isClosed⟩

end GameExport
