import GameExport.Proofs.Export.CompiledOnce
import GameExport.Proofs.Export.Placing
import GameExport.Proofs.Project.FileReferences

/-! # Each scene has an object of its own

An export changes its own copy of the project before it compiles it: it renames the files and stops
the profilers. Main statement: if no two scenes share a name, then each scene has one object, which
is made from the events of that scene and which the game is linked from once.
-/

namespace GameExport

open ExportM

/-! ## What scenes do -/

def withoutFiles (events : List Event) : List Event := mapFilesIn (fun _ => "") events

def Scene.script (scene : Scene) : String × List Event := (scene.name, withoutFiles scene.events)

def Project.scripts (project : Project) : List (String × List Event) :=
  project.scenes.map Scene.script

section Renaming

variable (rename : String → ExportM String)

theorem gives_mapFile_argument (argument : Argument) :
    Gives (argument.renameFile rename) fun renamed =>
      renamed.mapFile (fun _ => "") = argument.mapFile fun _ => "" := by
  cases argument with
  | value text => exact .pure rfl
  | file path => exact .bind (.anything _) fun _ _ => .pure rfl

theorem gives_mapFiles_instruction (instruction : Instruction) :
    Gives (instruction.renameFiles rename) fun renamed =>
      renamed.mapFiles (fun _ => "") = instruction.mapFiles fun _ => "" := by
  apply Gives.bind (.mapM instruction.arguments (gives_mapFile_argument rename))
  intro arguments same
  apply Gives.pure
  rw [Instruction.mapFiles, Instruction.mapFiles, same]

mutual
theorem gives_mapFiles_event : ∀ event : Event,
    Gives (event.renameFiles rename) fun renamed =>
      renamed.mapFiles (fun _ => "") = event.mapFiles fun _ => ""
  | .standard instructions subEvents => by
      rw [Event.renameFiles]
      apply Gives.bind (.mapM instructions (gives_mapFiles_instruction rename))
      intro instructions same
      apply Gives.bind (gives_withoutFiles subEvents)
      intro subEvents sameBelow
      apply Gives.pure
      rw [withoutFiles, withoutFiles] at sameBelow
      rw [Event.mapFiles, Event.mapFiles, same, sameBelow]
  | .link target => by
      rw [Event.renameFiles]
      exact .pure rfl
  | .code text dependencies subEvents => by
      rw [Event.renameFiles]
      apply Gives.bind (gives_withoutFiles subEvents)
      intro subEvents sameBelow
      apply Gives.pure
      rw [withoutFiles, withoutFiles] at sameBelow
      rw [Event.mapFiles, Event.mapFiles, sameBelow]
  | .comment text => by
      rw [Event.renameFiles]
      exact .pure rfl

theorem gives_withoutFiles : ∀ events : List Event,
    Gives (renameFilesIn rename events) fun renamed => withoutFiles renamed = withoutFiles events
  | [] => by
      rw [renameFilesIn]
      exact .pure rfl
  | event :: rest => by
      rw [renameFilesIn]
      apply Gives.bind (gives_mapFiles_event event)
      intro event same
      apply Gives.bind (gives_withoutFiles rest)
      intro rest sameRest
      apply Gives.pure
      rw [withoutFiles, withoutFiles] at sameRest ⊢
      rw [mapFilesIn, mapFilesIn, same, sameRest]
end

theorem gives_script (scene : Scene) :
    Gives (scene.renameFiles rename) fun renamed => renamed.script = scene.script := by
  apply Gives.bind (.anything _)
  intro _ _
  apply Gives.bind (gives_withoutFiles rename scene.events)
  intro events same
  apply Gives.pure
  rw [Scene.script, Scene.script, same]

theorem gives_scripts (announce : String → ExportM Unit) (project : Project) :
    Gives (project.renameFiles rename announce) fun renamed =>
      renamed.scripts = project.scripts := by
  apply Gives.bind (.anything _)
  intro _ _
  apply Gives.bind (.mapM project.scenes (gives_script rename))
  intro scenes same
  apply Gives.bind (.anything _)
  intro _ _
  apply Gives.bind (.anything _)
  intro _ _
  exact .pure same

end Renaming

/-! ## Until all units are compiled -/

section Stages

variable {tool : ExportTool} {request : ExportRequest}

/-- The scenes do what they were to do. -/
def Plays (request : ExportRequest) (state : ExportState) : Prop :=
  state.project.scripts = request.project.scripts

theorem plays_of_core {α : Type} {part : ExportM α} (keeps : Keeps ExportState.core part) :
    Maintains (Plays request) part :=
  keeps.maintains fun core => core.project.scripts = request.project.scripts

theorem plays_prepareResources : Maintains (Plays request) (prepareResources tool request) := by
  apply maintains_prepareResources gives_scripts
  · exact fun text detail => plays_of_core (keeps_say request text detail)
  · exact maintains_waitForQueue tool request fun _ _ => id
  · exact plays_of_core (keeps_emptyWorkingDirectory tool request)
  · exact fun _ _ _ => id
  · exact fun _ _ _ before _ same => same.trans before

theorem enduring_plays : Enduring request (fun _ => True) (Plays request) where
  told := fun notice => plays_of_core (keeps_tell request notice)
  resumed := fun _ _ => id
  submitted := fun _ _ _ => id
  taken := fun _ _ => id
  met := fun _ _ => id

theorem plays_compileUnits : Maintains (Plays request) (compileUnits tool request) := by
  apply maintains_compileUnits
  apply enduring_plays.lasting.checked.compileUnits
  · exact fun _ _ => trivial
  · intro state plays
    have same : ({ state.project with
        scenes := state.project.scenes.map Scene.withoutProfiler } : Project).scripts =
          state.project.scripts := by
      rw [Project.scripts, Project.scripts, List.map_map]
      rfl
    exact same.trans plays
  · exact plays_of_core (keeps_makeGenerated tool request)
  · exact fun _ _ _ => trivial

theorem plays_untilCompiling : Maintains (Plays request) (untilCompiling tool request) := by
  apply Meets.bind (plays_of_core (keeps_say request _ _))
  intro _
  apply maintains_goThrough
  · exact fun _ _ => id
  · intro stage member
    rcases List.mem_pair.mp member with rfl | rfl
    · exact plays_of_core keeps_validateTargets
    · exact plays_prepareResources

theorem plays_goThrough :
    Maintains (Plays request) (goThrough tool request [.compileUnits]) := by
  apply maintains_goThrough
  · exact fun _ _ => id
  · intro stage member
    rw [List.mem_singleton.mp member]
    exact plays_compileUnits

theorem isOf_goThrough :
    Meets (fun state => state.compilation.IsPrepared request)
      (goThrough tool request [.compileUnits])
      (fun _ state => state.tally.IsOf request.project.generatedUnits) fun _ _ => True := by
  apply Meets.bind (meets_stage isOf_compileUnits)
  intro _
  exact .pure fun _ => id

end Stages

/-! ## The objects of scenes -/

theorem Project.events?_scene {project : Project}
    (distinct : (project.scenes.map Scene.name).Nodup) {scene : Scene}
    (declared : scene ∈ project.scenes) :
    project.events? (.scene scene.name) = some scene.events := by
  obtain ⟨events, found⟩ := (HasEvents.scene declared).exists_events?
  obtain ⟨first, isFirst, rfl⟩ := Option.map_eq_some_iff.mp found
  have sameName := List.find?_some isFirst
  rw [beq_iff_eq] at sameName
  have same : first = scene :=
    List.inj_on_of_nodup_map distinct (List.mem_of_find?_eq_some isFirst) declared sameName
  rw [found, same]

theorem Plays.events? {request : ExportRequest} {state : ExportState} (plays : Plays request state)
    (distinct : (request.project.scenes.map Scene.name).Nodup) {scene : Scene}
    (declared : scene ∈ request.project.scenes) :
    ∃ events, state.project.events? (.scene scene.name) = some events ∧
      withoutFiles events = withoutFiles scene.events := by
  have names := congrArg (List.map Prod.fst) plays
  rw [Project.scripts, Project.scripts, List.map_map, List.map_map] at names
  have member : scene.script ∈ state.project.scripts := plays ▸ List.mem_map_of_mem declared
  obtain ⟨other, isOther, same⟩ := List.mem_map.mp member
  obtain ⟨sameName, sameEvents⟩ := Prod.mk.inj same
  rw [← sameName]
  exact ⟨other.events, Project.events?_scene (names ▸ distinct) isOther, sameEvents⟩

variable (tool : ExportTool) (request : ExportRequest)

/-- The objects that an export has once all units are compiled. `final` is the state in which the
export ends. -/
structure CompilesOnce (compiled final : ExportState) : Prop where
  outputs : compiled.objects = compiled.jobs.map fun record => record.job.call.output
  links : final.jobs = compiled.jobs ∨ LinksObjects compiled.compilation final
  once : compiled.objects.Nodup ↔ (request.project.scenes.map Scene.name).Nodup
  scenes : (request.project.scenes.map Scene.name).Nodup → ∀ scene ∈ request.project.scenes,
    ∃ record ∈ compiled.jobs, record.Made tool request (.scene scene.name) ∧
      record.job.call.output ∈ compiled.objects ∧
      record.job.Generates tool compiled.project (.scene scene.name) ∧
      ∃ events, compiled.project.events? (.scene scene.name) = some events ∧
        withoutFiles events = withoutFiles scene.events

/-- If no two scenes share a name, then each object is made once and linked once, and each scene has
one of its own. -/
theorem exportGame_compilesOnce (workshop : Workshop) (balanced : workshop.queue.Balanced)
    {prepared compiled : ExportState}
    (prepares : (untilCompiling tool request).run.run (.initial workshop request.project) =
      (.ok (), prepared))
    (compiles : (goThrough tool request [.compileUnits]).run.run prepared = (.ok (), compiled)) :
    CompilesOnce tool request compiled
      ((exportStages tool request).run.run (.initial workshop request.project)).2 := by
  have isStart : (ExportState.initial workshop request.project).compilation.IsStart request :=
    ⟨⟨rfl, rfl, rfl, rfl⟩, balanced⟩
  have isPrepared := prepared_untilCompiling.of_ok isStart prepares
  obtain ⟨⟨made, _⟩, _⟩ := compiled_goThrough.of_ok isPrepared compiles
  have serves := serves_goThrough.of_ok isPrepared.1.jobs compiles
  have isOf := isOf_goThrough.of_ok isPrepared compiles
  have plays : Plays request compiled := by
    have starts : Plays request (.initial workshop request.project) := rfl
    have playsBefore := plays_untilCompiling.meets.of_ok starts prepares
    exact plays_goThrough.meets.of_ok playsBefore compiles
  have objects : compiled.objects = compiled.jobs.map fun record => record.job.call.output :=
    made.objects
  refine ⟨objects, links_of_compiled made.queue prepares compiles, nodup_objects made isOf, ?_⟩
  intro distinct scene declared
  obtain ⟨record, member, isMade⟩ := made.complete _ (.scene declared)
  refine ⟨record, member, isMade, ?_, ?_, plays.events? distinct declared⟩
  · rw [objects]
    exact List.mem_map_of_mem member
  · rcases serves.2 record member with ⟨name, isSource, _⟩ | ⟨unit, _, generates⟩
    · rw [isMade.ofUnit] at isSource
      cases isSource
    · have same := isMade.ofUnit.symm.trans generates.ofUnit
      rw [Option.some.injEq] at same
      exact same ▸ generates

/-- The level of the shop has an object, which is made from the events of the level. -/
theorem exportGame_compilesOnce_shopGame :
    shopWorkshop.queue.Balanced ∧
    (untilCompiling shopTool shopRequest).run.run (.initial shopWorkshop shopRequest.project) =
      (.ok (), shopPrepared) ∧
    (goThrough shopTool shopRequest [.compileUnits]).run.run shopPrepared = (.ok (), shopCompiled) ∧
    shopCompiled.objects.Nodup ∧
    ∃ events, shopCompiled.project.events? (.scene "Level") = some events ∧
      withoutFiles events = [.link "Shop", .code "think();" [] []] := by
  have balanced : shopWorkshop.queue.Balanced := rfl
  have once := exportGame_compilesOnce shopTool shopRequest shopWorkshop balanced prepares_shopGame
    compiles_shopGame
  have distinct : (shopRequest.project.scenes.map Scene.name).Nodup := by decide
  have declared : Scene.mk "Level" [] [.link "Shop", .code "think();" [] []] false none ∈
      shopRequest.project.scenes := List.mem_singleton_self _
  obtain ⟨_, _, _, _, _, events⟩ := once.scenes distinct _ declared
  exact ⟨balanced, prepares_shopGame, compiles_shopGame, once.once.mpr distinct, events⟩

/-! ## Two scenes of one name -/

def twinGame : Project :=
  { Generation.shopGame with
    scenes :=
      [⟨"Level", [], [.code "first();" [] []], false, none⟩,
        ⟨"Level", [], [.code "second();" [] []], false, none⟩]
    externalEvents := []
    sourceFiles := [] }

def twinRequest : ExportRequest := { shopRequest with project := twinGame }

def twinPrepared : ExportState :=
  stateAfter (untilCompiling shopTool twinRequest) (.initial shopWorkshop twinGame)

def twinOpened : ExportState := stateAfter (setOut shopTool twinRequest) twinPrepared

def twinAnalysis : InclusionAnalysis := ⟨["Level", "Level"], [(.scene "Level", .ok .none)]⟩

def twinCompiled : ExportState :=
  stateAfter (compileLoops shopTool twinRequest twinOpened.project twinAnalysis) twinOpened

theorem prepares_twinGame :
    (untilCompiling shopTool twinRequest).run.run (.initial shopWorkshop twinRequest.project) =
      (.ok (), twinPrepared) :=
  run_eq_of_isOk (by decide +kernel)

theorem isPrepared_twinGame : twinPrepared.compilation.IsPrepared twinRequest := by
  have isStart : (ExportState.initial shopWorkshop twinRequest.project).compilation.IsStart
      twinRequest := ⟨⟨rfl, rfl, rfl, rfl⟩, rfl⟩
  exact prepared_untilCompiling.of_ok isStart prepares_twinGame

theorem compiles_twinGame :
    (goThrough shopTool twinRequest [.compileUnits]).run.run twinPrepared =
      (.ok (), twinCompiled) := by
  have opens : (setOut shopTool twinRequest).run.run twinPrepared = (.ok (), twinOpened) :=
    run_eq_of_isOk (by decide +kernel)
  have loops : (compileLoops shopTool twinRequest twinOpened.project twinAnalysis).run.run
      twinOpened = (.ok (), twinCompiled) := run_eq_of_isOk (by decide +kernel)
  have outline : twinOpened.project.outline = twinGame.outline := by
    have keeps : Keeps (fun state => state.project.outline) (setOut shopTool twinRequest) :=
      .bind (.modify fun _ => rfl) fun _ => keepsOutline_openGenerated shopTool twinRequest
    exact (keeps twinPrepared).trans isPrepared_twinGame.1.outline
  have analyzed : twinGame.inclusionAnalysis = twinAnalysis := by cbv
  refine run_compileUnits opens ?_ loops
  rw [Project.inclusionAnalysis_of_outline outline, analyzed]

/-- Both levels are compiled into one object, which the game is linked from twice. -/
theorem not_always_compilesOnce :
    ¬ ∀ (tool : ExportTool) (request : ExportRequest) (workshop : Workshop)
      (prepared compiled : ExportState), workshop.queue.Balanced →
      (untilCompiling tool request).run.run (.initial workshop request.project) =
        (.ok (), prepared) →
      (goThrough tool request [.compileUnits]).run.run prepared = (.ok (), compiled) →
      compiled.objects.Nodup := by
  intro always
  have once := always shopTool twinRequest shopWorkshop twinPrepared twinCompiled rfl
    prepares_twinGame compiles_twinGame
  obtain ⟨⟨made, _⟩, _⟩ := compiled_goThrough.of_ok isPrepared_twinGame compiles_twinGame
  have isOf := isOf_goThrough.of_ok isPrepared_twinGame compiles_twinGame
  have distinct := (nodup_objects made isOf).mp once
  exact absurd distinct (by decide)

end GameExport
