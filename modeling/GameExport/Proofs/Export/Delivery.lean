import GameExport.Proofs.Export.Placing
import GameExport.Proofs.FileTree.Clearing

/-! # What a game is delivered with

A game that is copied as it is consists of the container, the library and the files of its
platforms, all in one directory. Main statement: if none of these takes the name of another, then an
export without any error leaves each of them in the output directory as it was made or installed.
-/

namespace GameExport

open ExportM FileTree

variable {tool : ExportTool} {request : ExportRequest} {here there : Location}

/-! ## Packaging -/

/-- A directory to which files of another have been copied under their names. -/
structure Exported (source target : Path) (here there : Location) (before : FileTree)
    (done : List String) (after : FileTree) : Prop where
  working : PlainDirectory source here after
  output : PlainDirectory target there after
  same : ∀ name, after.node? (here ++ [name]) = before.node? (here ++ [name])
  delivers : ∀ name ∈ done, ∀ content, before.node? (here ++ [name]) = some (.file content) →
    after.read (target.child name) = .ok content

theorem Exported.step {source target : Path} {before files after : FileTree} {done : List String}
    (exported : Exported source target here there before done files) (apart : there ≠ here)
    {name : String} (isName : IsName name)
    (copied : files.copy (source.child name) (target.child name) = .ok after) :
    Exported source target here there before (done ++ [name]) after := by
  rcases exported.output.copy_eq isName copied with
    ⟨location, held, content, found, writable, rfl, copies⟩
  have leaf := (exported.output.writable_eq isName writable).2
  have differ := leaf.differAt_put content
  have output := exported.output.put isName leaf content
  -- no entry of one directory is one of the other, so only the copy itself is new
  have elsewhere (name other : String) : here ++ [name] ≠ there ++ [other] :=
    fun same => apart (List.append_inj' same rfl).1.symm
  rcases exported.working.find_eq isName found with ⟨rfl, stands⟩
  refine ⟨exported.working.differAt differ output.kept, output, ?_, ?_⟩
  · intro other
    rw [node?_put_of_ne files _ (elsewhere other name)]
    exact exported.same other
  · intro other member original taken
    by_cases isLast : other = name
    · subst isLast
      rw [← exported.same, stands] at taken
      cases taken
      rw [copies (elsewhere other other)]
      exact read_put exported.output.kept.rooted writable held
    · have earlier : other ∈ done := by
        rcases List.mem_append.mp member with earlier | last
        · exact earlier
        · exact absurd (List.mem_singleton.mp last) isLast
      rcases read_eq_ok_iff.mp (exported.delivers other earlier original taken) with ⟨place, held⟩
      have isOther : IsName other := exported.working.kept.isName_of_node?
        ((exported.same other).trans taken) other (by simp)
      rcases exported.output.find_eq isOther held with ⟨rfl, _⟩
      have notLast : there ++ [other] ≠ there ++ [name] := by simpa using isLast
      exact read_eq_ok_iff.mpr ⟨_, find_differAt differ held notLast⟩

theorem meets_exportFile {holds next : FileTree → Prop} {name : String}
    (step : ∀ files after, holds files → Package.copyFile files
      (tool.workingDirectory.child name) (request.options.output.child name) = .ok after →
      next after) :
    Meets (Clean holds) (exportFile tool request name) (fun _ => Clean next) fun _ _ => True := by
  unfold exportFile
  apply meets_get_bind
  intro start clean
  split
  · rename_i files copied
    intro state same spotless
    subst same
    exact step _ files (clean spotless) copied
  · exact meets_record _

theorem meets_package_delivers (verbatim : request.options.isCompressed = false)
    {start : ExportState} (output : PlainDirectory request.options.output there
      (start.files.createDirectories request.options.output).1) (apart : there ≠ here) :
    Meets (fun state => state = start) (package tool request)
      (fun _ => Clean fun files => start.warnings = [] ∧
        (PlainDirectory tool.workingDirectory here start.files →
          ∀ name content, start.files.node? (here ++ [name]) = some (.file content) →
            files.read (request.options.output.child name) = .ok content))
      fun _ _ => True := by
  let files : FileTree := (start.files.createDirectories request.options.output).1
  have adds : AddsDirectories start.files files := addsDirectories_createDirectories _ _
  have source (working : PlainDirectory tool.workingDirectory here start.files) :
      PlainDirectory tool.workingDirectory here files := working.addsDirectories adds output.kept
  -- what the working directory is like is only known if no error had been recorded at the start,
  -- which the end has to tell
  let holds (done : List String) (after : FileTree) : Prop :=
    start.warnings = [] ∧ (PlainDirectory tool.workingDirectory here start.files →
      Exported tool.workingDirectory request.options.output here there files done after)
  have opens : Clean (holds []) (start.withFiles files) := by
    intro spotless
    refine ⟨spotless, fun working => ⟨source working, output, fun _ => rfl, ?_⟩⟩
    intro name member
    cases member
  have fills : Meets (fun state => state = start.withFiles files) (packageVerbatim tool request)
      (fun _ => Clean fun after => start.warnings = [] ∧
        (PlainDirectory tool.workingDirectory here start.files →
          ∀ name content, start.files.node? (here ++ [name]) = some (.file content) →
            after.read (request.options.output.child name) = .ok content))
      fun _ _ => True := by
    unfold packageVerbatim
    apply meets_get_bind
    intro state same
    subst same
    split
    · exact .throw fun _ _ => trivial
    · rename_i names listed
      change Package.listFiles files tool.workingDirectory = .ok names at listed
      have each : ∀ done name rest, names = done ++ name :: rest →
          Meets (Clean (holds done)) (exportFile tool request name)
            (fun _ => Clean (holds (done ++ [name]))) fun _ _ => True := by
        intro done name rest split
        have member : name ∈ names := split ▸ by simp
        apply meets_exportFile
        intro before after earlier copied
        rcases earlier with ⟨spotless, exported⟩
        refine ⟨spotless, fun working => ?_⟩
        have isName := (source working).isName_of_mem_listFiles listed member
        exact (exported working).step apart isName (copy_of_copyFile copied)
      apply ((Meets.forM each).start opens).imp
      intro _ state clean spotless
      rcases clean spotless with ⟨before, exported⟩
      refine ⟨before, fun working name content taken => ?_⟩
      have stands := adds.shrinks.fewer _ _ taken
      have member := (((source working).listFiles_eq listed).2 name).mpr ⟨content, stands⟩
      exact (exported working).delivers name member content stands
  have creates : Meets (fun state => state = start)
      (changingFiles fun files => files.createDirectories request.options.output)
      (fun _ state => state = start.withFiles files) fun _ _ => True := by
    intro state same
    subst same
    exact rfl
  unfold package
  dsimp only
  apply Meets.bind creates
  intro created
  rw [verbatim]
  cases created with
  | error cause => exact meets_throw_bind fun _ _ => trivial
  | ok => exact fills

/-! ## What a host is told -/

def ExportState.outcome (state : ExportState) : FileTree × List ExportError :=
  (state.files, state.warnings)

theorem keepsOutcome_tell (quiet : request.IsQuiet) (notice : Notice Progress) :
    Keeps ExportState.outcome (tell request notice) := by
  apply Keeps.modify
  intro state
  have same := quiet notice state.workshop.world
  exact congrArg (·, state.warnings) same

theorem keepsOutcome_goThrough_done (quiet : request.IsQuiet) :
    Keeps ExportState.outcome (goThrough tool request [.done]) := by
  have ends : Keeps ExportState.outcome (do
      enter .done
      workOf tool request .done) := by
    have enters : Keeps ExportState.outcome (enter .done) := .modify fun _ => rfl
    apply Keeps.bind enters
    intro _
    exact keepsOutcome_tell quiet _
  apply Keeps.bind ends
  intro _
  exact .pure _

theorem keepsOutcome_conclude (quiet : request.IsQuiet) (report : ExportReport) :
    Keeps ExportState.outcome (conclude request report) := by
  unfold conclude
  dsimp only
  cases report.failure with
  | some error =>
      apply Keeps.bind (keepsOutcome_tell quiet _)
      intro _
      exact keepsOutcome_tell quiet _
  | none => exact keepsOutcome_tell quiet _

/-! ## What the compiler is called with -/

theorem meets_submitAndWait_files {job : Job} (plain : job.preparation = none)
    (quiet : request.IsQuiet) {start : ExportState} (empty : start.workshop.queue.IsEmpty)
    {holds : FileTree → Prop} (before : holds start.files)
    (called : holds (start.workshop.calledFiles tool.compiler job)) :
    Meets (fun state => state = start) (submitAndWait tool request job)
      (fun _ state => holds state.files) fun _ _ => True := by
  apply meets_get_bind
  intro state same
  subst same
  dsimp only
  split
  · exact meets_throw_bind fun _ _ => trivial
  · apply meets_modify_bind
    apply meets_resume
    · intro idle _ same
      subst same
      exact Workshop.files_wait_submit empty plain (quiet .idle) before called idle
    · exact fun _ _ _ => trivial

/-- Linking leaves the files as they were or as the compiler leaves them. -/
theorem meets_link_files (quiet : request.IsQuiet) {start : ExportState}
    (empty : start.workshop.queue.IsEmpty) (holds : FileTree → Prop) (before : holds start.files)
    (called : holds (start.workshop.calledFiles tool.compiler
      (linkJob tool request start.project start.objects start.files))) :
    Meets (fun state => state = start) (link tool request) (fun _ state => holds state.files)
      fun _ _ => True := by
  have keeps (notice : Notice Progress) :
      Meets (fun state => holds state.files) (tell request notice)
        (fun _ state => holds state.files) fun _ _ => True :=
    (keepsOutcome_tell quiet notice).meets (fun outcome => holds outcome.1) fun _ _ _ => trivial
  have told : Meets (fun state => state = start)
      (say request "Linking project files..." none)
      (fun _ state => state.files = start.files ∧ state.project = start.project ∧
        state.objects = start.objects ∧ state.workshop.queue = start.workshop.queue)
      fun _ _ => True := by
    rintro _ rfl
    exact ⟨quiet _ _, rfl, rfl, rfl⟩
  unfold link
  apply Meets.bind told
  intro _
  apply meets_get_bind
  rintro state ⟨sameFiles, sameProject, sameObjects, sameQueue⟩
  rw [sameFiles, sameProject, sameObjects]
  rw [Workshop.calledFiles, Workshop.cleared] at called
  change state.workshop.world.files = start.workshop.world.files at sameFiles
  rw [← sameFiles, ← sameQueue] at called
  apply Meets.bind (meets_submitAndWait_files rfl quiet (sameQueue ▸ empty)
    (sameFiles ▸ before : holds state.workshop.world.files) called)
  intro _
  apply meets_get_bind
  intro final left
  split
  · apply Meets.bind ((keeps _).start left)
    intro _
    exact keeps _
  · apply meets_get_bind
    intro _ _
    exact meets_throw_bind fun _ _ => trivial

/-! ## The last parts of an export -/

section States

variable (tool : ExportTool) (request : ExportRequest) (workshop : Workshop)

def packingState : ExportState :=
  stateAfter (untilPacking tool request) (.initial workshop request.project)

def packedState : ExportState :=
  stateAfter (packWorkingFiles tool request) (packingState tool request workshop)

def linkedState : ExportState :=
  stateAfter (goThrough tool request [.link]) (packedState tool request workshop)

def placedState : ExportState :=
  stateAfter (goThrough tool request [.copyPlatformFiles]) (linkedState tool request workshop)

def packagedState : ExportState :=
  stateAfter (goThrough tool request [.package]) (placedState tool request workshop)

/-- An export that has gone through all that it does to files without any error. -/
structure Packages : Prop where
  begins : (untilPacking tool request).run.run (.initial workshop request.project) =
    (.ok (), packingState tool request workshop)
  packs : (packWorkingFiles tool request).run.run (packingState tool request workshop) =
    (.ok (), packedState tool request workshop)
  links : (goThrough tool request [.link]).run.run (packedState tool request workshop) =
    (.ok (), linkedState tool request workshop)
  places : (goThrough tool request [.copyPlatformFiles]).run.run
    (linkedState tool request workshop) = (.ok (), placedState tool request workshop)
  packages : (goThrough tool request [.package]).run.run (placedState tool request workshop) =
    (.ok (), packagedState tool request workshop)
  spotless : (packagedState tool request workshop).warnings = []

end States

theorem run_stateAfter {part : ExportM Unit} {next : Unit → ExportM Unit}
    {state final : ExportState} (run : (part >>= next).run.run state = (.ok (), final)) :
    part.run.run state = (.ok (), stateAfter part state) ∧
      (next ()).run.run (stateAfter part state) = (.ok (), final) := by
  rcases of_run_bind_eq_ok run with ⟨_, between, first, second⟩
  have same : stateAfter part state = between := by rw [stateAfter, first]
  rw [same]
  exact ⟨first, second⟩

theorem afterPacking_eq : afterPacking tool request = (do
    goThrough tool request [.link]
    goThrough tool request [.copyPlatformFiles]
    goThrough tool request [.package]
    goThrough tool request [.done]) := by
  rw [← goThrough_append, ← goThrough_append, ← goThrough_append]
  rfl

theorem packages_of_isSuccess {workshop : Workshop} (quiet : request.IsQuiet)
    (success : (exportGame tool request workshop).report.isSuccess = true) :
    Packages tool request workshop ∧ (exportGame tool request workshop).workshop.world.files =
      (packagedState tool request workshop).files := by
  have concluded : (exportGame tool request workshop).workshop.world.files =
      (stateAfter (exportStages tool request) (.initial workshop request.project)).files :=
    congrArg Prod.fst (keepsOutcome_conclude quiet _ _)
  have report : (exportGame tool request workshop).report =
      reportOf (stateAfter (exportStages tool request) (.initial workshop request.project))
        ((exportStages tool request).run.run (.initial workshop request.project)).1 := rfl
  rw [report, ExportReport.isSuccess, Bool.and_eq_true, List.isEmpty_iff] at success
  rcases success with ⟨through, spotless⟩
  have whole : (exportStages tool request).run.run (.initial workshop request.project) =
      (.ok (), stateAfter (exportStages tool request) (.initial workshop request.project)) := by
    apply run_eq_of_isOk
    generalize ((exportStages tool request).run.run (.initial workshop request.project)).1 = result
      at through
    cases result with
    | ok => rfl
    | error error => cases through
  generalize stateAfter (exportStages tool request) (.initial workshop request.project) = last
    at concluded spotless whole
  rw [exportStages_eq, afterPacking_eq] at whole
  rcases run_stateAfter whole with ⟨begins, rest⟩
  rcases run_stateAfter rest with ⟨packs, rest⟩
  rcases run_stateAfter rest with ⟨links, rest⟩
  rcases run_stateAfter rest with ⟨places, rest⟩
  rcases run_stateAfter rest with ⟨packages, ends⟩
  have done : stateAfter (goThrough tool request [.done]) (packagedState tool request workshop) =
      last := congrArg Prod.snd ends
  have same : last.outcome = (packagedState tool request workshop).outcome := by
    rw [← done]
    exact keepsOutcome_goThrough_done quiet _
  refine ⟨⟨begins, packs, links, places, packages, ?_⟩, concluded.trans (congrArg Prod.fst same)⟩
  exact (congrArg Prod.snd same).symm.trans spotless

/-! ## What is delivered -/

/-- Nothing that is copied next to the container and the library has the name of one of them, and
no two files of the runtime have one name. -/
structure NamesDiffer (tool : ExportTool) (request : ExportRequest) : Prop where
  areNames : ∀ file ∈ platformFiles tool request.options request.project, IsName file.name
  container : ∀ file ∈ platformFiles tool request.options request.project,
    file.name ≠ containerName
  library : ∀ file ∈ platformFiles tool request.options request.project,
    file.name ≠ libraryName request.options.targets
  runtime : ((request.options.targets.toList.flatMap
    (runtimeFiles tool request.options request.project)).map PlatformFile.name).Nodup

section Delivered

variable (tool : ExportTool) (request : ExportRequest) (workshop : Workshop)

def linkingJob : Job :=
  let packed := packedState tool request workshop
  linkJob tool request packed.project packed.objects packed.files

/-- The directories of an export are apart and hold no links, no resource is called as the
container, the runtime is installed elsewhere, and the compiler, when it is called to link, makes
the library and leaves the container alone. -/
structure InOrder (here there : Location) : Prop where
  packing : PlainDirectory tool.workingDirectory here (packingState tool request workshop).files
  free : (packingState tool request workshop).files.node? (here ++ [containerName]) = none
  linked : PlainDirectory tool.workingDirectory here (linkedState tool request workshop).files
  untouched :
    ((packedState tool request workshop).workshop.calledFiles tool.compiler
      (linkingJob tool request workshop)).node? (here ++ [containerName]) =
    ((packedState tool request workshop).workshop.cleared
      (linkingJob tool request workshop)).files.node? (here ++ [containerName])
  made : ∃ code, (linkedState tool request workshop).files.read
    (tool.workingDirectory.child (libraryName request.options.targets)) = .ok code
  installed : ∀ target ∈ request.options.targets.toList,
    ∀ file ∈ runtimeFiles tool request.options request.project target,
      ¬ LeadsInto here (linkedState tool request workshop).files file.source
  output : PlainDirectory request.options.output there
    ((placedState tool request workshop).files.createDirectories request.options.output).1
  apart : there ≠ here

/-- Whether the output directory holds what each part of an export has made or found installed. -/
structure Delivered : Prop where
  container : ∃ names after bytes,
    Package.listFiles (packingState tool request workshop).files tool.workingDirectory =
      .ok names ∧
    tool.pack (packingState tool request workshop).files names tool.workingDirectory
      (tool.workingDirectory.child containerName) = (after, .ok ()) ∧
    after.read (tool.workingDirectory.child containerName) = .ok bytes ∧
    (exportGame tool request workshop).workshop.world.files.read
      (request.options.output.child containerName) = .ok bytes
  library : ∃ code,
    (linkedState tool request workshop).files.read
      (tool.workingDirectory.child (libraryName request.options.targets)) = .ok code ∧
    (exportGame tool request workshop).workshop.world.files.read
      (request.options.output.child (libraryName request.options.targets)) = .ok code
  runtime : ∀ target ∈ request.options.targets.toList,
    ∀ file ∈ runtimeFiles tool request.options request.project target, ∃ content,
      (linkedState tool request workshop).files.read file.source = .ok content ∧
      (exportGame tool request workshop).workshop.world.files.read
        (request.options.output.child file.name) = .ok content

end Delivered

/-- The platform files end with those of the runtime, so no other file takes the place of one of
them. -/
theorem NamesDiffer.last (differ : NamesDiffer tool request) {target : Target}
    (selected : target ∈ request.options.targets.toList) {file : PlatformFile}
    (member : file ∈ runtimeFiles tool request.options request.project target) :
    ∃ front back, platformFiles tool request.options request.project = front ++ file :: back ∧
      file.name ∉ back.map PlatformFile.name := by
  have among : file ∈ request.options.targets.toList.flatMap
      (runtimeFiles tool request.options request.project) :=
    List.mem_flatMap.mpr ⟨target, selected, member⟩
  rcases List.append_of_mem among with ⟨before, back, split⟩
  have distinct := differ.runtime
  rw [split, List.map_append, List.map_cons] at distinct
  have isLast := (List.nodup_cons.mp distinct.of_append_right).1
  rw [platformFiles, split, ← List.append_assoc]
  exact ⟨_, back, rfl, isLast⟩

section Packages

variable {workshop : Workshop} (packages : Packages tool request workshop)

include packages

theorem Packages.ships : Ships request (linkedState tool request workshop) := by
  have start : Ships request (.initial workshop request.project) := rfl
  have packing := ships_untilPacking.of_ok start packages.begins
  have packs : Maintains (Ships request) (packWorkingFiles tool request) :=
    ships_of_core (keeps_packWorkingFiles tool request)
  have links : Maintains (Ships request) (goThrough tool request [.link]) :=
    enduring_ships.goThrough_link fun _ _ => id
  exact links.of_ok (packs.of_ok packing packages.packs) packages.links

theorem Packages.isEmpty (balanced : workshop.queue.Balanced) :
    (packedState tool request workshop).workshop.queue.IsEmpty := by
  have start : (ExportState.initial workshop request.project).compilation.IsStart request :=
    ⟨⟨rfl, rfl, rfl, rfl⟩, balanced⟩
  have ready := meets_untilPacking.of_ok start packages.begins
  have same := (meets_packWorkingFiles.of_ok rfl packages.packs).1
  rw [← same] at ready
  exact ready.1.queue

theorem Packages.container_linked (quiet : request.IsQuiet) (balanced : workshop.queue.Balanced)
    (order : InOrder tool request workshop here there) :
    (linkedState tool request workshop).files.node? (here ++ [containerName]) =
      (packedState tool request workshop).files.node? (here ++ [containerName]) := by
  let holds (files : FileTree) : Prop := files.node? (here ++ [containerName]) =
    (packedState tool request workshop).files.node? (here ++ [containerName])
  have different : containerName ≠ libraryName request.options.targets := by
    rw [libraryName]
    split <;> decide
  have cleared : holds ((packedState tool request workshop).workshop.cleared
      (linkingJob tool request workshop)).files :=
    Workshop.node?_clearOutput_child _ tool.workingDirectory
      (isName_libraryName request.options.targets) different here
  let packed : ExportState := packedState tool request workshop
  have links : Meets (fun state => state = { packed with stages := packed.stages ++ [.link] })
      (workOf tool request .link) (fun _ state => holds state.files) fun _ _ => True := by
    apply meets_link_files quiet _ holds
    · rfl
    · exact order.untouched.trans cleared
    · exact packages.isEmpty balanced
  exact (meets_goThrough links).of_ok rfl packages.links

/-- What stands in the working directory when the game is packaged is delivered, and the platform
files had been placed there. -/
theorem Packages.leaves (quiet : request.IsQuiet)
    (verbatim : request.options.isCompressed = false) (differ : NamesDiffer tool request)
    (order : InOrder tool request workshop here there) :
    Placed tool.workingDirectory here (linkedState tool request workshop).files
        (platformFiles tool request.options request.project)
        (placedState tool request workshop).files ∧
      (packedState tool request workshop).warnings = [] ∧
      ∀ name content,
        (placedState tool request workshop).files.node? (here ++ [name]) = some (.file content) →
        (packagedState tool request workshop).files.read
          (request.options.output.child name) = .ok content := by
  let linked : ExportState := linkedState tool request workshop
  let placed : ExportState := placedState tool request workshop
  have places : Meets
      (fun state => state = { linked with stages := linked.stages ++ [.copyPlatformFiles] })
      (workOf tool request .copyPlatformFiles)
      (fun _ => Clean fun files => linked.warnings = [] ∧ Placed tool.workingDirectory here
        linked.files (platformFiles tool request.options request.project) files)
      fun _ _ => True :=
    meets_copyPlatformFiles_places quiet packages.ships order.linked differ.areNames
  have delivers : Meets
      (fun state => state = { placed with stages := placed.stages ++ [.package] })
      (workOf tool request .package)
      (fun _ => Clean fun files => placed.warnings = [] ∧
        (PlainDirectory tool.workingDirectory here placed.files →
          ∀ name content, placed.files.node? (here ++ [name]) = some (.file content) →
            files.read (request.options.output.child name) = .ok content))
      fun _ _ => True :=
    meets_package_delivers verbatim order.output order.apart
  have delivered := (meets_goThrough delivers).of_ok rfl packages.packages packages.spotless
  have stands := (meets_goThrough places).of_ok rfl packages.places delivered.1
  have links : Maintains (Follows (packedState tool request workshop))
      (goThrough tool request [.link]) := enduring_follows.goThrough_link fun _ _ => id
  have follows : Follows (packedState tool request workshop) linked :=
    links.of_ok ⟨rfl, id⟩ packages.links
  exact ⟨stands.2, follows.2 stands.1, delivered.2 stands.2.plain⟩

end Packages

/-- If the container, the library and the runtime have names of their own, then an export that
copies a game as it is and ends without any error delivers all of them: the container as it was
packed, the library as it was linked, and the runtime of each target as it is installed. -/
theorem exportGame_delivers (tool : ExportTool) (request : ExportRequest) (workshop : Workshop)
    (balanced : workshop.queue.Balanced) (writes : Packer.WritesOutput tool.pack)
    (quiet : request.IsQuiet)
    (verbatim : request.options.isCompressed = false)
    (success : (exportGame tool request workshop).report.isSuccess = true)
    (differ : NamesDiffer tool request) {here there : Location}
    (order : InOrder tool request workshop here there) : Delivered tool request workshop := by
  rcases packages_of_isSuccess quiet success with ⟨packages, final⟩
  rcases packages.leaves quiet verbatim differ order with ⟨placed, spotless, delivers⟩
  rw [← final] at delivers
  -- what has a name of its own stands where it stood before the platform files came
  have stays {name : String}
      (apart : ∀ file ∈ platformFiles tool request.options request.project, file.name ≠ name) :
      (placedState tool request workshop).files.node? (here ++ [name]) =
        (linkedState tool request workshop).files.node? (here ++ [name]) := by
    apply placed.elsewhere
    intro file member same
    exact apart file member (by simpa using same.symm)
  refine ⟨?_, ?_, ?_⟩
  · have packs := (meets_packWorkingFiles_leaves writes order.packing order.free).of_ok rfl
      packages.packs spotless
    rcases packs with ⟨names, after, bytes, listed, packed, written, held⟩
    refine ⟨names, after, bytes, listed, packed, written, delivers _ _ ?_⟩
    rw [stays differ.container, packages.container_linked quiet balanced order, held]
  · rcases order.made with ⟨code, reads⟩
    rcases read_eq_ok_iff.mp reads with ⟨location, found⟩
    have held := (order.linked.find_eq (isName_libraryName request.options.targets) found).2
    refine ⟨code, reads, delivers _ _ ?_⟩
    rw [stays differ.library, held]
  · intro target selected file member
    rcases differ.last selected member with ⟨front, back, split, last⟩
    have outside := order.installed target selected file member
    rcases placed.copies front file back split last outside with ⟨content, reads, held⟩
    exact ⟨content, reads, delivers _ _ held⟩

/-! ## A game and an extension -/

instance (tool : ExportTool) (request : ExportRequest) : Decidable (NamesDiffer tool request) :=
  decidable_of_iff
    ((∀ file ∈ platformFiles tool request.options request.project, IsName file.name ∧
        file.name ≠ containerName ∧ file.name ≠ libraryName request.options.targets) ∧
      ((request.options.targets.toList.flatMap
        (runtimeFiles tool request.options request.project)).map PlatformFile.name).Nodup) (by
    constructor
    · intro differ
      rcases differ with ⟨names, runtime⟩
      exact ⟨fun file member => (names file member).1, fun file member => (names file member).2.1,
        fun file member => (names file member).2.2, runtime⟩
    · intro differ
      rcases differ with ⟨areNames, container, library, runtime⟩
      exact ⟨fun file member => ⟨areNames file member, container file member,
        library file member⟩, runtime⟩)

instance (tool : ExportTool) (request : ExportRequest) (workshop : Workshop)
    (here there : Location) : Decidable (InOrder tool request workshop here there) :=
  decidable_of_iff
    (PlainDirectory tool.workingDirectory here (packingState tool request workshop).files ∧
      (packingState tool request workshop).files.node? (here ++ [containerName]) = none ∧
      PlainDirectory tool.workingDirectory here (linkedState tool request workshop).files ∧
      ((packedState tool request workshop).workshop.calledFiles tool.compiler
        (linkingJob tool request workshop)).node? (here ++ [containerName]) =
      ((packedState tool request workshop).workshop.cleared
        (linkingJob tool request workshop)).files.node? (here ++ [containerName]) ∧
      ((linkedState tool request workshop).files.read
        (tool.workingDirectory.child (libraryName request.options.targets))).isOk = true ∧
      (∀ target ∈ request.options.targets.toList,
        ∀ file ∈ runtimeFiles tool request.options request.project target,
          ¬ LeadsInto here (linkedState tool request workshop).files file.source) ∧
      PlainDirectory request.options.output there
        ((placedState tool request workshop).files.createDirectories request.options.output).1 ∧
      there ≠ here) (by
    constructor
    · intro order
      rcases order with ⟨packing, free, linked, untouched, made, installed, output, apart⟩
      exact ⟨packing, free, linked, untouched, isOk_iff_exists.mp made, installed, output, apart⟩
    · intro order
      rcases order with ⟨packing, free, linked, untouched, made, installed, output, apart⟩
      exact ⟨packing, free, linked, untouched, isOk_iff_exists.mpr made, installed, output, apart⟩)

/-- A launcher with a name of its own is delivered with the rest of the game. -/
theorem exportGame_delivers_launcher :
    runtimeWorkshop.queue.Balanced ∧ NamesDiffer obligingTool (launcherRequest "Hero") ∧
      (exportGame obligingTool (launcherRequest "Hero") runtimeWorkshop).report.isSuccess = true ∧
      InOrder obligingTool (launcherRequest "Hero") runtimeWorkshop ["work"] ["out"] ∧
      Delivered obligingTool (launcherRequest "Hero") runtimeWorkshop := by
  have differ : NamesDiffer obligingTool (launcherRequest "Hero") := by decide +kernel
  have run :
      (exportGame obligingTool (launcherRequest "Hero") runtimeWorkshop).report.isSuccess = true ∧
        InOrder obligingTool (launcherRequest "Hero") runtimeWorkshop ["work"] ["out"] := by
    decide +kernel
  rcases run with ⟨success, order⟩
  exact ⟨rfl, differ, success, order, exportGame_delivers obligingTool (launcherRequest "Hero")
    runtimeWorkshop rfl Container.pack_writesOutput (fun _ _ => rfl) rfl success differ order⟩

def steamTool : ExportTool :=
  let part : RuntimePart := ⟨[], [(.linux, ⟨"/steam/Code.so"⟩)]⟩
  { obligingTool with extensions := ⟨[⟨"Steam", "", some part⟩]⟩ }

def steamRequest : ExportRequest :=
  { launcherRequest "Hero" with
    project := { (launcherRequest "Hero").project with extensions := ["Steam"] } }

def steamWorkshop : Workshop :=
  let files := (runtimeWorkshop.world.files.put ["steam"] .directory).put ["steam", "Code.so"]
    (.file [9])
  { runtimeWorkshop with world := { runtimeWorkshop.world with files := files } }

/-- The file of the extension is delivered in place of the library, though the export ends without
any error and everything else is in order. -/
theorem steam_replaces_library :
    steamRequest.options.isCompressed = false ∧
      (exportGame steamTool steamRequest steamWorkshop).report.isSuccess = true ∧
      InOrder steamTool steamRequest steamWorkshop ["work"] ["out"] ∧
      ¬ Delivered steamTool steamRequest steamWorkshop := by
  have run : (exportGame steamTool steamRequest steamWorkshop).report.isSuccess = true ∧
      InOrder steamTool steamRequest steamWorkshop ["work"] ["out"] ∧
      ((linkedState steamTool steamRequest steamWorkshop).files.read
        ⟨"/work/Code.so"⟩).toOption = some [] ∧
      ((exportGame steamTool steamRequest steamWorkshop).workshop.world.files.read
        ⟨"/out/Code.so"⟩).toOption = some [9] := by
    decide +kernel
  rcases run with ⟨success, order, linked, delivered⟩
  refine ⟨rfl, success, order, fun all => ?_⟩
  rcases all.library with ⟨code, reads, arrives⟩
  have made := (eq_ok_of_toOption linked).symm.trans reads
  have left := (eq_ok_of_toOption delivered).symm.trans arrives
  cases made
  cases left

end GameExport
