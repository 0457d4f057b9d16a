import GameExport.Proofs.Export.Confinement
import GameExport.Proofs.Export.LinkClosure

/-! # How often a unit is compiled

Compiling goes through the scenes in their order, before each of them through the sheets that are
compiled for it alone, and in between through the source files that were not met before. Main
statement: no object is made twice exactly if no two scenes share a name.
-/

namespace GameExport

open ExportM

/-! ## Objects are told apart -/

theorem Path.eq_of_child_eq {directory : Path} {left right : String} (leftIsName : IsName left)
    (rightIsName : IsName right) (same : directory.child left = directory.child right) :
    left = right := by
  have texts := congrArg Path.text same
  simp only [child, join, if_neg leftIsName.not_isAbsolute, if_neg rightIsName.not_isAbsolute]
    at texts
  split at texts
  · exact texts
  · split at texts
    · exact String.append_right_inj _ |>.mp texts
    · exact String.append_right_inj _ |>.mp texts

theorem UnitFiles.objectPath_injective (generated : Path) :
    Function.Injective fun unit => objectPath unit generated := by
  have noSlash : '/' ∉ objectEnding.toList := by decide
  intro left right same
  have names := Path.eq_of_child_eq (left.isName_stem_append noSlash)
    (right.isName_stem_append noSlash) same
  exact UnitName.stem_injective (String.append_left_inj _ |>.mp names)

/-! ## The order of compiling -/

def UnitName.isGenerated : UnitName → Bool
  | .scene _ => true
  | .externalEvents _ => true
  | .sourceFile _ => false

def sheetsFor (project : Project) (scene : String) : List String :=
  match project.inclusionAnalysis.needs (.scene scene) with
  | .ok requirements => requirements.externalEvents.toList.filter fun sheet =>
      (ownSheets project project.inclusionAnalysis).lookup sheet == some scene
  | .error _ => []

def unitsFor (project : Project) (scene : String) : List UnitName :=
  (sheetsFor project scene).map .externalEvents ++ [.scene scene]

def Project.generatedUnits (project : Project) : List UnitName :=
  (project.scenes.map Scene.name).flatMap (unitsFor project)

theorem nodup_sheetsFor (project : Project) (scene : String) : (sheetsFor project scene).Nodup := by
  unfold sheetsFor
  split
  · rename_i requirements _
    have distinct : requirements.externalEvents.toList.Nodup :=
      requirements.externalEvents.increasing.imp fun before => ne_of_lt before
    exact distinct.filter _
  · exact .nil

theorem lookup_of_mem_sheetsFor {project : Project} {scene sheet : String}
    (member : sheet ∈ sheetsFor project scene) :
    (ownSheets project project.inclusionAnalysis).lookup sheet = some scene := by
  unfold sheetsFor at member
  split at member
  · exact beq_iff_eq.mp (List.mem_filter.mp member).2
  · cases member

theorem nodup_unitsFor (project : Project) (scene : String) : (unitsFor project scene).Nodup := by
  have sheets : ((sheetsFor project scene).map UnitName.externalEvents).Nodup :=
    (nodup_sheetsFor project scene).map fun _ _ => UnitName.externalEvents.inj
  refine List.nodup_append.mpr ⟨sheets, List.nodup_singleton _, ?_⟩
  rintro _ member _ isScene rfl
  obtain ⟨_, _, rfl⟩ := List.mem_map.mp member
  cases List.mem_singleton.mp isScene

theorem disjoint_unitsFor {project : Project} {scene other : String} (different : scene ≠ other) :
    (unitsFor project scene).Disjoint (unitsFor project other) := by
  intro unit member memberToo
  rcases List.mem_append.mp member with isSheet | isScene
  · obtain ⟨name, sheet, rfl⟩ := List.mem_map.mp isSheet
    rcases List.mem_append.mp memberToo with isSheetToo | isScene
    · obtain ⟨_, sheetToo, same⟩ := List.mem_map.mp isSheetToo
      cases same
      have compiledFor := (lookup_of_mem_sheetsFor sheet).symm.trans
        (lookup_of_mem_sheetsFor sheetToo)
      exact different (Option.some.inj compiledFor)
    · cases List.mem_singleton.mp isScene
  · cases List.mem_singleton.mp isScene
    rcases List.mem_append.mp memberToo with isSheet | isSceneToo
    · obtain ⟨_, _, same⟩ := List.mem_map.mp isSheet
      cases same
    · exact different (UnitName.scene.inj (List.mem_singleton.mp isSceneToo))

/-- A generated source is compiled twice only if two scenes share a name. -/
theorem nodup_generatedUnits {project : Project} :
    project.generatedUnits.Nodup ↔ (project.scenes.map Scene.name).Nodup := by
  rw [Project.generatedUnits, List.nodup_flatMap]
  constructor
  · rintro ⟨_, disjoint⟩
    refine disjoint.imp fun {scene other} disjoint => ?_
    rintro rfl
    have member : .scene scene ∈ unitsFor project scene := by simp [unitsFor]
    exact disjoint member member
  · intro distinct
    exact ⟨fun _ _ => nodup_unitsFor _ _, distinct.imp disjoint_unitsFor⟩

/-! ## What has been compiled -/

/-- The units of the jobs so far, and the source files that were met. -/
structure Tally where
  units : List UnitName
  sources : NameSet

def ExportState.tally (state : ExportState) : Tally where
  units := state.jobs.filterMap fun record => record.job.unit
  sources := state.sources

/-- The units with generated sources are told one by one, and no source file was compiled twice. -/
structure Tally.IsOf (units : List UnitName) (tally : Tally) : Prop where
  generated : tally.units.filter UnitName.isGenerated = units
  sourcesOnce : (tally.units.filter fun unit => !unit.isGenerated).Nodup
  met : ∀ name, .sourceFile name ∈ tally.units → name ∈ tally.sources

namespace Tally.IsOf

variable {tally : Tally} {units : List UnitName}

theorem add (isOf : tally.IsOf units) {unit : UnitName} (generated : unit.isGenerated = true) :
    IsOf (units ++ [unit]) ⟨tally.units ++ [unit], tally.sources⟩ := by
  constructor
  · simp [isOf.generated, generated]
  · simpa [generated] using isOf.sourcesOnce
  · intro name member
    rcases List.mem_append.mp member with member | same
    · exact isOf.met name member
    · rw [← List.mem_singleton.mp same] at generated
      cases generated

theorem meet (isOf : tally.IsOf units) (name : String) :
    IsOf units ⟨tally.units, tally.sources.insert name⟩ :=
  ⟨isOf.generated, isOf.sourcesOnce,
    fun other member => NameSet.mem_insert.mpr (.inr (isOf.met other member))⟩

theorem addSource (isOf : tally.IsOf units) {name : String} (new : name ∉ tally.sources) :
    IsOf units ⟨tally.units ++ [.sourceFile name], tally.sources.insert name⟩ := by
  have notCompiled : .sourceFile name ∉ tally.units := fun member => new (isOf.met name member)
  constructor
  · simpa [UnitName.isGenerated] using isOf.generated
  · rw [List.filter_append]
    refine List.nodup_append.mpr ⟨isOf.sourcesOnce, by simp [UnitName.isGenerated], ?_⟩
    rintro unit member _ isSource rfl
    have same : unit = .sourceFile name := by simpa [UnitName.isGenerated] using isSource
    exact notCompiled (same ▸ List.mem_of_mem_filter member)
  · intro other member
    rw [NameSet.mem_insert]
    rcases List.mem_append.mp member with member | same
    · exact .inr (isOf.met other member)
    · exact .inl (UnitName.sourceFile.inj (List.mem_singleton.mp same))

theorem nodup_iff (isOf : tally.IsOf units) : tally.units.Nodup ↔ units.Nodup := by
  have parts := List.filter_append_perm UnitName.isGenerated tally.units
  rw [← parts.nodup_iff, isOf.generated, List.nodup_append]
  constructor
  · exact And.left
  · intro distinct
    refine ⟨distinct, isOf.sourcesOnce, ?_⟩
    rintro unit member _ memberToo rfl
    have generated : unit.isGenerated = true := by
      rw [← isOf.generated] at member
      exact (List.mem_filter.mp member).2
    have notGenerated := (List.mem_filter.mp memberToo).2
    rw [generated] at notGenerated
    cases notGenerated

end Tally.IsOf

/-! ## What is compiled in each part -/

section Parts

variable {tool : ExportTool} {request : ExportRequest} {tally : Tally} {units : List UnitName}

theorem keepsTally_of_core {α : Type} {part : ExportM α} (keeps : Keeps ExportState.core part) :
    Keeps ExportState.tally part :=
  keeps.of_observed fun core : ExportCore =>
    Tally.mk (core.jobs.filterMap fun record : SubmittedJob => record.job.unit) core.sources

theorem keepsTally_takeObject (files : UnitFiles) : Keeps ExportState.tally (takeObject files) := by
  intro state
  unfold takeObject
  rw [run_bind]
  change ((if state.files.pathExists files.object = true then _ else _ : ExportM Unit).run.run
    state).2.tally = _
  split
  · rfl
  · rfl

theorem isOf_of_keeps {α : Type} {part : ExportM α} (keeps : Keeps ExportState.tally part) :
    Meets (fun state => state.tally.IsOf units) part (fun _ state => state.tally.IsOf units)
      fun _ _ => True :=
  keeps.meets (Tally.IsOf units) fun _ _ _ => trivial

theorem tally_of_keeps {α : Type} {part : ExportM α} (keeps : Keeps ExportState.tally part) :
    Meets (fun state => state.tally = tally) part (fun _ state => state.tally = tally)
      fun _ _ => True :=
  keeps.meets (fun other => other = tally) fun _ _ _ => trivial

theorem tally_submitAndWait {job : Job} {unit : UnitName} (ofUnit : job.unit = some unit) :
    Meets (fun state => state.tally = tally) (submitAndWait tool request job)
      (fun _ state => state.tally = ⟨tally.units ++ [unit], tally.sources⟩) fun _ _ => True := by
  apply meets_get_bind
  intro start same
  subst same
  dsimp only
  split
  · exact meets_throw_bind fun _ _ => trivial
  · apply meets_modify_bind
    apply meets_resume
    · intro _ state same
      subst same
      simp [ExportState.tally, ExportState.resumed, ofUnit]
    · exact fun _ _ _ => trivial

theorem tally_compileEvents {project : Project} {compiled : NameSet} {unit : UnitName} :
    Meets (fun state => state.tally = tally) (compileEvents tool request project compiled unit)
      (fun _ state => state.tally = ⟨tally.units ++ [unit], tally.sources⟩) fun _ _ => True :=
  Meets.bind (tally_submitAndWait rfl) fun _ => tally_of_keeps (keepsTally_takeObject _)

theorem tally_sourceJob {files : UnitFiles} {unit : UnitName} (ofUnit : files.unit = unit) :
    Meets (fun state => state.tally = tally)
      (do
        submitAndWait tool request (sourceJob request files)
        takeObject files)
      (fun _ state => state.tally = ⟨tally.units ++ [unit], tally.sources⟩) fun _ _ => True :=
  Meets.bind (tally_submitAndWait (congrArg some ofUnit)) fun _ =>
    tally_of_keeps (keepsTally_takeObject files)

theorem tally_compileSource {name : String} :
    Meets (fun state => state.tally = tally) (compileSource tool request name)
      (fun _ state => state.tally = tally ∨
        state.tally = ⟨tally.units ++ [.sourceFile name], tally.sources⟩)
      fun _ _ => True := by
  apply meets_get_bind
  intro start isTally
  subst isTally
  dsimp only
  split
  · apply Meets.pure
    rintro _ rfl
    exact .inl rfl
  · rename_i source found
    have sameName : source.name = name := by
      have holds := List.find?_some found
      rw [Bool.and_eq_true, beq_iff_eq] at holds
      exact holds.1
    have ofUnit : (start.project.sourceUnit source tool.settings.generatedDirectory).unit =
        .sourceFile name := congrArg UnitName.sourceFile sameName
    apply Meets.bind ((tally_of_keeps (keepsTally_of_core (keeps_say request _ _))).start rfl)
    intro _
    exact (tally_sourceJob ofUnit).imp fun _ _ => .inr

theorem isOf_compileEvents {project : Project} {compiled : NameSet} {unit : UnitName}
    (generated : unit.isGenerated = true) :
    Meets (fun state => state.tally.IsOf units) (compileEvents tool request project compiled unit)
      (fun _ state => state.tally.IsOf (units ++ [unit])) fun _ _ => True := by
  apply Meets.of_start
  intro start isOf
  apply (tally_compileEvents.start rfl).imp
  intro _ state same
  rw [same]
  exact isOf.add generated

theorem isOf_compileNewSources (names : NameSet) :
    Meets (fun state => state.tally.IsOf units) (compileNewSources tool request names)
      (fun _ state => state.tally.IsOf units) fun _ _ => True := by
  apply Meets.forM_keeping
  intro name _
  apply meets_get_bind
  intro start isOf
  split
  · exact .pure fun _ same => same ▸ isOf
  · rename_i new
    apply meets_modify_bind
    apply (tally_compileSource.start rfl).imp
    intro _ state outcome
    rcases outcome with same | same
    · rw [same]
      exact isOf.meet name
    · rw [same]
      exact isOf.addSource new

theorem meets_requirementsOf_answered {analysis : InclusionAnalysis} {unit : UnitName} :
    Meets (fun state => state.tally.IsOf units) (requirementsOf analysis unit)
      (fun requirements state => state.tally.IsOf units ∧ analysis.needs unit = .ok requirements)
      fun _ _ => True := by
  intro state isOf
  unfold requirementsOf
  cases answer : analysis.needs unit with
  | ok requirements => exact ⟨isOf, rfl⟩
  | error error => trivial

theorem isOf_compileSheets {project : Project} {compiled : NameSet} (sheets : List String) :
    Meets (fun state => state.tally.IsOf units)
      (sheets.forM fun sheet =>
        compileEvents tool request project compiled (.externalEvents sheet))
      (fun _ state => state.tally.IsOf (units ++ sheets.map .externalEvents)) fun _ _ => True := by
  induction sheets generalizing units with
  | nil => exact .pure fun state isOf => by rwa [List.map_nil, List.append_nil]
  | cons sheet rest induction =>
      apply Meets.bind (isOf_compileEvents rfl)
      intro _
      rw [List.map_cons, List.append_cons units _ (rest.map _)]
      exact induction

theorem isOf_compileScene {project others : Project} {total place : Nat} {scene : String} :
    Meets (fun state => state.tally.IsOf units)
      (compileScene tool request project others.inclusionAnalysis
        (ownSheets others others.inclusionAnalysis) total (scene, place))
      (fun _ state => state.tally.IsOf (units ++ unitsFor others scene)) fun _ _ => True := by
  apply Meets.bind meets_requirementsOf_answered
  intro requirements
  apply Meets.of_start
  intro start holds
  have sheets : sheetsFor others scene = requirements.externalEvents.toList.filter fun sheet =>
      (ownSheets others others.inclusionAnalysis).lookup sheet == some scene := by
    rw [sheetsFor, holds.2]
  apply Meets.bind ((isOf_of_keeps (keepsTally_of_core (keeps_say request _ _))).start holds.1)
  intro _
  apply Meets.bind (isOf_compileNewSources _)
  intro _
  apply Meets.bind (isOf_compileSheets _)
  intro _
  apply Meets.bind (isOf_compileEvents rfl)
  intro _
  apply Meets.bind (isOf_of_keeps (keepsTally_of_core (keeps_say request _ _)))
  intro _
  rw [unitsFor, sheets, ← List.append_assoc]
  exact isOf_of_keeps (keepsTally_of_core (keeps_progress request _))

theorem isOf_compileScenes {project others : Project} {total : Nat}
    (scenes : List (String × Nat)) :
    Meets (fun state => state.tally.IsOf units)
      (scenes.forM (compileScene tool request project others.inclusionAnalysis
        (ownSheets others others.inclusionAnalysis) total))
      (fun _ state => state.tally.IsOf (units ++ (scenes.map Prod.fst).flatMap (unitsFor others)))
      fun _ _ => True := by
  induction scenes generalizing units with
  | nil => exact .pure fun state isOf => by rwa [List.map_nil, List.flatMap_nil, List.append_nil]
  | cons scene rest induction =>
      apply Meets.bind isOf_compileScene
      intro _
      rw [List.map_cons, List.flatMap_cons, ← List.append_assoc]
      exact induction

theorem isOf_compileLoops {project : Project} (same : project.outline = request.project.outline) :
    Meets (fun state => state.tally.IsOf [])
      (compileLoops tool request project project.inclusionAnalysis)
      (fun _ state => state.tally.IsOf request.project.generatedUnits) fun _ _ => True := by
  have names : project.scenes.map (·.name) = request.project.scenes.map Scene.name :=
    Project.scenes_of_outline same
  have placed := List.zipIdx_map_fst 1 (request.project.scenes.map Scene.name)
  rw [compileLoops, Project.inclusionAnalysis_of_outline same, ownSheets_of_outline same, names,
    Project.generatedUnits]
  generalize (request.project.scenes.map Scene.name).zipIdx 1 = items at placed ⊢
  apply Meets.bind (isOf_compileScenes items)
  intro _
  rw [placed, List.nil_append]
  apply Meets.forM_keeping
  intro sheet _
  apply Meets.bind meets_requirementsOf_answered
  intro requirements
  exact (isOf_compileNewSources _).weaken (fun _ => And.left) (fun _ _ => id) fun _ _ => id

theorem isOf_compileUnits :
    Meets (fun state => state.compilation.IsPrepared request) (compileUnits tool request)
      (fun _ state => state.tally.IsOf request.project.generatedUnits) fun _ _ => True := by
  have opens : Maintains
      (fun state => state.tally.IsOf [] ∧ state.project.outline = request.project.outline)
      (openGenerated tool request) := by
    have tally : Keeps ExportState.tally (openGenerated tool request) :=
      .bind (.modify fun _ => rfl) fun _ => keepsTally_of_core (keeps_makeGenerated tool request)
    have outline := keepsOutline_openGenerated tool request
    exact (tally.maintains (Tally.IsOf [])).and
      (outline.maintains fun outline => outline = request.project.outline)
  have starts (state : ExportState) (prepared : state.compilation.IsPrepared request) :
      state.tally.IsOf [] ∧ state.project.outline = request.project.outline := by
    have jobs : state.jobs = [] := prepared.1.jobs
    refine ⟨⟨?_, ?_, ?_⟩, prepared.1.outline⟩
    · simp [ExportState.tally, jobs]
    · simp [ExportState.tally, jobs]
    · simp [ExportState.tally, jobs]
  rw [compileUnits_eq]
  apply Meets.bind (opens.meets.weaken starts (fun _ _ => id) fun _ _ => id)
  intro _
  apply meets_get_bind
  intro start holds
  exact (isOf_compileLoops holds.2).start holds.1

end Parts

/-! ## Objects -/

theorem outputs_eq_map_units {tool : ExportTool} {request : ExportRequest}
    {jobs : List SubmittedJob}
    (made : ∀ record ∈ jobs, ∃ unit, record.Made tool request unit) :
    (jobs.map fun record => record.job.call.output) =
      (jobs.filterMap fun record => record.job.unit).map fun unit =>
        UnitFiles.objectPath unit tool.settings.generatedDirectory := by
  induction jobs with
  | nil => rfl
  | cons record rest induction =>
      obtain ⟨unit, first⟩ := made record List.mem_cons_self
      have others := induction fun other member => made other (List.mem_cons_of_mem _ member)
      simp only [List.map_cons, List.filterMap_cons, first.ofUnit, first.output, others]

theorem objects_eq_map_units {tool : ExportTool} {request : ExportRequest}
    {done : UnitName → Prop} {state : ExportState}
    (made : state.compilation.IsMade tool request done) :
    state.objects = state.tally.units.map fun unit =>
      UnitFiles.objectPath unit tool.settings.generatedDirectory := by
  have objects : state.objects = state.jobs.map fun record => record.job.call.output := made.objects
  rw [objects, ExportState.tally]
  apply outputs_eq_map_units
  intro record member
  obtain ⟨unit, _, isMade⟩ := made.made record member
  exact ⟨unit, isMade⟩

/-- No object is made twice exactly if no two scenes share a name. -/
theorem nodup_objects {tool : ExportTool} {request : ExportRequest} {done : UnitName → Prop}
    {state : ExportState} (made : state.compilation.IsMade tool request done)
    (isOf : state.tally.IsOf request.project.generatedUnits) :
    state.objects.Nodup ↔ (request.project.scenes.map Scene.name).Nodup := by
  rw [objects_eq_map_units made,
    List.nodup_map_iff (UnitFiles.objectPath_injective tool.settings.generatedDirectory),
    isOf.nodup_iff, nodup_generatedUnits]

end GameExport
