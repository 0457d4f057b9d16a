import GameExport.Proofs.Export.Compiling
import GameExport.Proofs.Export.Happening
import GameExport.Proofs.Export.Shipping
import GameExport.Proofs.Package.Outputs
import GameExport.Proofs.Unit.Stems

/-! # Where an export changes files

An export changes files in three directories: the working directory, the one for generated files
and the output directory. The names of units and of resources always stand for entries of these.
Main statement: if the names of the platform files do so too, then nothing else happens to the
files during an export than entries of these directories being changed, apart from what the host,
the compiler and the jobs of others do.
-/

namespace GameExport

open ExportM FileTree

/-! ## Names of units and of listed files -/

theorem UnitName.isName_stem_append (unit : UnitName) {ending : String}
    (noSlash : '/' ∉ ending.toList) : IsName (unit.stem ++ ending) := by
  have letters : (unit.stem ++ ending).toList =
      'G' :: 'D' :: (unit.tag ++ mangle unit.name ++ ending).toList := by
    simp [UnitName.stem]
  have apart {text : String} (other : text.toList.head? ≠ some 'G') :
      unit.stem ++ ending ≠ text := by
    rintro rfl
    rw [letters] at other
    exact other rfl
  refine ⟨apart (by decide), apart (by decide), apart (by decide), ?_⟩
  rw [String.toList_append]
  intro slash
  rcases List.mem_append.mp slash with front | back
  · rcases UnitName.isWordChar_of_mem_stem front with letter | underscore
    · cases letter
    · cases underscore
  · exact noSlash back

theorem isName_libraryName (targets : TargetSet) : IsName (libraryName targets) := by
  rw [libraryName]
  split
  · decide
  · decide

theorem isName_of_mem_listFiles {files : FileTree} {directory : Path} {names : List String}
    (wellNamed : files.WellNamed) (listed : Package.listFiles files directory = .ok names) :
    ∀ name ∈ names, IsName name := by
  rw [Package.listFiles, regularFiles] at listed
  cases root : files.walkRoot directory with
  | error cause =>
      rw [root] at listed
      cases listed
  | ok stands =>
      rw [root] at listed
      cases stands with
      | none =>
          cases listed
          intro name member
          cases member
      | some here =>
          cases listed
          intro name member
          rcases List.mem_filterMap.mp member with ⟨⟨other, node⟩, among, same⟩
          have isName := wellNamed.isName_of_sortedChildren among
          cases node with
          | file content =>
              cases same
              exact isName
          | directory => cases same
          | link target => cases same

/-! ## Names of platform files -/

theorem platformFiles_of_shipping {left right : Project} (same : left.shipping = right.shipping)
    (tool : ExportTool) (options : ExportOptions) :
    platformFiles tool options left = platformFiles tool options right := by
  cases left
  cases right
  cases same
  rfl

theorem windowsName_of_shipping {left right : Project} (same : left.shipping = right.shipping) :
    left.windowsName = right.windowsName := by
  cases left
  cases right
  cases same
  rfl

/-- The names that a project and its extensions give to what is shipped can be those of entries of
a directory. -/
structure PlainNames (tool : ExportTool) (request : ExportRequest) : Prop where
  files : ∀ file ∈ platformFiles tool request.options request.project, IsName file.name
  executable : request.options.isCompressed = true → IsName request.project.windowsName

/-! ## States of an export -/

section Confined

variable (tool : ExportTool) (request : ExportRequest) (others : List Job) (origin : FileTree)

/-- All that has happened to the files may happen during an export, and so it can go on: the names
of the resources are told apart, and the project ships with what it was to ship with. -/
structure Confined (state : ExportState) : Prop where
  stays : Stays tool request others origin state.workshop
  resources : state.resources.Apart
  shipping : state.project.shipping = request.project.shipping

variable {tool request others origin}

/-- A change of files that consists of steps in the directories of an export. -/
def KeepsInside (tool : ExportTool) (request : ExportRequest) (before after : FileTree) : Prop :=
  before.WellNamed → Steps (tool.workplaces request.options) before after

theorem mem_workplaces_working : tool.workingDirectory ∈ tool.workplaces request.options :=
  List.mem_cons_self

theorem mem_workplaces_generated :
    tool.settings.generatedDirectory ∈ tool.workplaces request.options :=
  List.mem_cons_of_mem _ List.mem_cons_self

theorem mem_workplaces_output : request.options.output ∈ tool.workplaces request.options :=
  List.mem_cons_of_mem _ (List.mem_cons_of_mem _ List.mem_cons_self)

variable (keeps : KeepsNames tool request others)

include keeps

/-! ## Rules -/

theorem Confined.withFiles {state : ExportState}
    (confined : Confined tool request others origin state) {files : FileTree}
    (inside : KeepsInside tool request state.files files) :
    Confined tool request others origin (state.withFiles files) where
  stays := confined.stays.extend keeps (happenings_of_steps (inside confined.stays.wellNamed))
    fun _ => id
  resources := confined.resources
  shipping := confined.shipping

theorem confined_tell (notice : Notice Progress) :
    Maintains (Confined tool request others origin) (tell request notice) := by
  apply Meets.modify
  intro state confined
  exact ⟨confined.stays.extend keeps (.single (.host notice state.workshop.world)) fun _ => id,
    confined.resources, confined.shipping⟩

theorem confined_say (text : String) (detail : Option String) :
    Maintains (Confined tool request others origin) (say request text detail) :=
  confined_tell keeps _

theorem confined_progress (value : Progress) :
    Maintains (Confined tool request others origin) (progress request value) :=
  confined_tell keeps _

theorem confined_record (error : ExportError) :
    Maintains (Confined tool request others origin) (record request error) := by
  unfold record
  split
  · exact Meets.throw fun _ => id
  · apply Meets.bind (confined_tell keeps _)
    intro _
    apply Meets.modify
    intro state confined
    exact ⟨confined.stays, confined.resources, confined.shipping⟩

theorem confined_attempt {ε : Type} {change : FileTree → Except ε FileTree}
    {blame : ε → ExportError}
    (inside : ∀ before after, change before = .ok after → KeepsInside tool request before after) :
    Maintains (Confined tool request others origin) (attempt request change blame) := by
  apply meets_get_bind
  intro start confined
  split
  · rename_i after changed
    apply Meets.modify
    intro state same
    subst same
    exact confined.withFiles keeps (inside _ _ changed)
  · exact Meets.start (confined_record keeps _) confined

theorem confined_changingFiles {ε α : Type} {change : FileTree → FileTree × Except ε α}
    (inside : ∀ before, KeepsInside tool request before (change before).1) :
    Maintains (Confined tool request others origin) (changingFiles change) :=
  fun state confined => confined.withFiles keeps (inside state.files)

theorem Confined.resumed {state : ExportState}
    (confined : Confined tool request others origin state) {workshop : Workshop}
    (stays : Stays tool request others origin workshop) :
    Confined tool request others origin (state.resumed (awaited tool request workshop)) where
  stays := stays.awaited keeps
  resources := confined.resources
  shipping := confined.shipping

theorem confined_waitForQueue :
    Maintains (Confined tool request others origin) (waitForQueue tool request) := by
  apply meets_get_bind
  intro start confined
  have resumed := confined.resumed keeps confined.stays
  apply meets_resume tool request
  · intro _ state same
    exact same ▸ resumed
  · intro _ state same
    exact same ▸ resumed

theorem confined_submitAndWait {job : Job}
    (isLocal : job.IsLocal (tool.workplaces request.options)) :
    Maintains (Confined tool request others origin) (submitAndWait tool request job) := by
  unfold submitAndWait
  apply meets_get_bind
  intro start confined
  dsimp only
  split
  · apply meets_throw_bind
    intro _ same
    exact same ▸ confined
  · have resumed := confined.resumed keeps (confined.stays.submit isLocal)
    apply meets_modify_bind
    let record : SubmittedJob := ⟨job, awaited tool request (start.workshop.submit job)⟩
    have added : Confined tool request others origin
        (({ start with jobs := start.jobs ++ [record] } : ExportState).resumed
          (awaited tool request (start.workshop.submit job))) :=
      ⟨resumed.stays, resumed.resources, resumed.shipping⟩
    apply meets_resume tool request
    · intro _ state same
      exact same ▸ added
    · intro _ state same
      exact same ▸ added

/-! ## Preparing the resources -/

theorem confined_emptyWorkingDirectory :
    Maintains (Confined tool request others origin) (emptyWorkingDirectory tool request) := by
  unfold emptyWorkingDirectory
  have creates : Maintains (Confined tool request others origin)
      (changingFiles fun files => files.createDirectories tool.workingDirectory) :=
    confined_changingFiles keeps fun _ _ => steps_createDirectories mem_workplaces_working
  apply Meets.bind creates
  intro created
  cases created with
  | error cause => exact confined_record keeps _
  | ok =>
      apply meets_get_bind
      intro start confined
      apply Meets.start _ confined
      dsimp only
      split
      · exact confined_record keeps _
      · apply Meets.forM_keeping
        intro entry member
        have isName := confined.stays.wellNamed.isName_of_sortedChildren member
        apply confined_attempt keeps
        intro before after removed _
        exact .single (step_removeEntry mem_workplaces_working isName removed)

theorem confined_prepareResources :
    Maintains (Confined tool request others origin) (prepareResources tool request) := by
  apply maintains_prepareResources gives_renameFiles_shipping
  · exact confined_say keeps
  · exact confined_waitForQueue keeps
  · exact confined_emptyWorkingDirectory keeps
  · intro base path state confined
    exact ⟨confined.stays, confined.resources.expose state.files base path, confined.shipping⟩
  · intro start state project before confined same
    exact ⟨confined.stays, confined.resources, same.trans before.shipping⟩

/-! ## Compiling and linking -/

omit keeps in
theorem output_objectPath (unit : UnitName) :
    ∃ directory ∈ tool.workplaces request.options, ∃ name, IsName name ∧
      UnitFiles.objectPath unit tool.settings.generatedDirectory = directory.child name := by
  have noSlash : '/' ∉ UnitFiles.objectEnding.toList := by decide
  exact ⟨tool.settings.generatedDirectory, mem_workplaces_generated,
    unit.stem ++ UnitFiles.objectEnding, unit.isName_stem_append noSlash, rfl⟩

omit keeps in
theorem isLocal_sourceJob (project : Project) (source : SourceFile) :
    (sourceJob request (Project.sourceUnit project source tool.settings.generatedDirectory)).IsLocal
      (tool.workplaces request.options) where
  output := by
    have same : (sourceJob request
        (project.sourceUnit source tool.settings.generatedDirectory)).call.output =
          (project.sourceUnit source tool.settings.generatedDirectory).object := by
      rw [sourceJob, compileCall, CompilerCall.compile]
    rw [same, object_sourceUnit]
    exact output_objectPath _
  preparation := by
    intro preparation none
    cases none

omit keeps in
theorem isLocal_eventsJob (project : Project) (compiled : NameSet) (unit : UnitName) :
    (eventsJob tool request project compiled unit).IsLocal (tool.workplaces request.options) where
  output := by
    have same : (eventsJob tool request project compiled unit).call.output =
        UnitFiles.objectPath unit tool.settings.generatedDirectory := by
      rw [eventsJob, compileCall, CompilerCall.compile, UnitFiles.generated]
    rw [same]
    exact output_objectPath _
  preparation := by
    intro preparation same world wellNamed
    cases same
    have noSlash : '/' ∉ UnitFiles.sourceEnding.toList := by decide
    have isName := unit.isName_stem_append noSlash
    rw [writeCode]
    split
    · exact .refl
    · exact .refl
    · split
      · rename_i after written
        have step : Step (tool.workplaces request.options) world.files after :=
          step_write wellNamed mem_workplaces_generated isName written
        exact .single step
      · exact .refl

omit keeps in
theorem isLocal_linkJob (project : Project) (objects : List Path) (files : FileTree) :
    (linkJob tool request project objects files).IsLocal (tool.workplaces request.options) where
  output := ⟨tool.workingDirectory, mem_workplaces_working, libraryName request.options.targets,
    isName_libraryName _, rfl⟩
  preparation := by
    intro preparation none
    cases none

theorem lasting_confined : Lasting tool request ⟨awaited tool request⟩
    (fun job => job.IsLocal (tool.workplaces request.options))
    (Confined tool request others origin) (fun _ => Confined tool request others origin) where
  said := confined_say keeps
  progressed := confined_progress keeps
  failed := fun _ _ _ => id
  waited := fun _ => confined_submitAndWait keeps
  taken := fun _ _ confined => ⟨confined.stays, confined.resources, confined.shipping⟩
  met := fun _ _ confined => ⟨confined.stays, confined.resources, confined.shipping⟩

theorem confined_compileUnits :
    Maintains (Confined tool request others origin) (compileUnits tool request) := by
  apply maintains_compileUnits
  apply (lasting_confined keeps).checked.compileUnits isLocal_sourceJob
  · exact fun _ confined => ⟨confined.stays, confined.resources, confined.shipping⟩
  · have creates : Maintains (Confined tool request others origin)
        (changingFiles fun files => files.createDirectories tool.settings.generatedDirectory) :=
      confined_changingFiles keeps fun _ _ => steps_createDirectories mem_workplaces_generated
    exact maintains_makeGenerated creates (confined_record keeps)
  · exact isLocal_eventsJob

/-! ## Putting the game together -/

theorem confined_copyFile {source : Path} {name : String} {directory : Path}
    {blame : PackageError → ExportError}
    (member : directory ∈ tool.workplaces request.options) (isName : IsName name) :
    Maintains (Confined tool request others origin)
      (attempt request (fun files => Package.copyFile files source (directory.child name))
        blame) := by
  apply confined_attempt keeps
  intro before after copied wellNamed
  exact steps_copy wellNamed member isName (copy_of_copyFile copied)

theorem confined_copyResources :
    Maintains (Confined tool request others origin) (copyResources tool request) := by
  unfold copyResources
  apply Meets.bind (confined_say keeps _ _)
  intro _
  apply meets_get_bind
  intro start confined
  apply Meets.start _ confined
  apply Meets.forM_keeping
  intro entry member
  have listed : entry.1 ∈ start.resources.entries := by
    have among := List.mem_map_of_mem (f := Prod.fst) member
    rwa [List.zipIdx_map_fst] at among
  apply Meets.bind (confined_say keeps _ _)
  intro _
  apply Meets.bind (confined_copyFile keeps mem_workplaces_working
    (confined.resources.named entry.1 listed))
  intro _
  exact confined_progress keeps _

theorem confined_removeWorkingFile {name : String} (isName : IsName name) :
    Maintains (Confined tool request others origin) (removeWorkingFile tool request name) := by
  unfold removeWorkingFile
  apply confined_attempt keeps
  intro before after removed _
  exact .single (step_removeFile mem_workplaces_working isName removed)

theorem confined_writeDescriptor :
    Maintains (Confined tool request others origin) (writeDescriptor tool request) := by
  unfold writeDescriptor
  apply Meets.bind (confined_say keeps _ _)
  intro _
  apply meets_get_bind
  intro start confined
  apply Meets.start _ confined
  dsimp only
  have saves : Maintains (Confined tool request others origin) (attempt request
      (fun files => start.project.strip.save files (tool.workingDirectory.child plainDescriptor))
      .descriptorNotWritten) := by
    apply confined_attempt keeps
    intro before after saved wellNamed
    exact .single (step_write wellNamed mem_workplaces_working isName_plainDescriptor
      (write_of_save saved))
  have encrypts : Maintains (Confined tool request others origin) (attempt request
      (fun files => Cipher.encryptFile files (tool.workingDirectory.child plainDescriptor)
        (tool.workingDirectory.child encryptedDescriptor)) .descriptorNotEncrypted) := by
    apply confined_attempt keeps
    intro before after encrypted wellNamed
    rcases write_of_encryptFile encrypted with ⟨content, _, written⟩
    exact .single (step_write wellNamed mem_workplaces_working isName_encryptedDescriptor written)
  have removes : Maintains (Confined tool request others origin)
      (removeWorkingFile tool request plainDescriptor) := by
    apply confined_removeWorkingFile keeps
    exact isName_plainDescriptor
  apply Meets.bind saves
  intro _
  apply Meets.bind (confined_progress keeps _)
  intro _
  apply Meets.bind (confined_say keeps _ _)
  intro _
  apply Meets.bind encrypts
  intro _
  apply Meets.bind removes
  intro _
  exact confined_progress keeps _

theorem confined_packWorkingFiles (packs : Packer.KeepsToOutput tool.pack) :
    Maintains (Confined tool request others origin) (packWorkingFiles tool request) := by
  unfold packWorkingFiles
  apply meets_get_bind
  intro start confined
  apply Meets.start _ confined
  split
  · exact Meets.throw fun _ => id
  · rename_i names listed
    have writes : Maintains (Confined tool request others origin) (changingFiles fun files =>
        tool.pack files names tool.workingDirectory
          (tool.workingDirectory.child containerName)) := by
      apply confined_changingFiles keeps
      intro before wellNamed
      exact (packs before names tool.workingDirectory _).steps wellNamed mem_workplaces_working
        isName_containerName
    apply Meets.bind writes
    intro packed
    cases packed with
    | error cause => exact Meets.throw fun _ => id
    | ok =>
        apply Meets.forM_keeping
        intro name member
        exact confined_removeWorkingFile keeps
          (isName_of_mem_listFiles confined.stays.wellNamed listed name member)

theorem confined_stripAndEncrypt (packs : Packer.KeepsToOutput tool.pack) :
    Maintains (Confined tool request others origin) (stripAndEncrypt tool request) := by
  apply Meets.bind (confined_writeDescriptor keeps)
  intro _
  apply Meets.bind (confined_say keeps _ _)
  intro _
  exact confined_packWorkingFiles keeps packs

theorem confined_copyPlatformFiles (plain : PlainNames tool request) :
    Maintains (Confined tool request others origin) (copyPlatformFiles tool request) := by
  have copies : Maintains (Confined tool request others origin) (do
      (platformFiles tool request.options (← get).project).forM (copyPlatformFile tool request)
      progress request (.percent 95)) := by
    apply meets_get_bind
    intro start confined
    apply Meets.start _ confined
    rw [platformFiles_of_shipping confined.shipping]
    apply Meets.bind (Meets.forM_keeping fun file member =>
      confined_copyFile keeps mem_workplaces_working (plain.files file member))
    intro _
    exact confined_progress keeps _
  unfold copyPlatformFiles
  apply Meets.bind (confined_say keeps _ _)
  intro _
  dsimp only
  split
  · apply Meets.bind (confined_say keeps _ _)
    intro _
    exact copies
  · exact copies

theorem confined_exportFile {name : String} (isName : IsName name) :
    Maintains (Confined tool request others origin) (exportFile tool request name) := by
  unfold exportFile
  apply meets_get_bind
  intro start confined
  split
  · rename_i files copied
    have inside : KeepsInside tool request start.files files := fun wellNamed =>
      steps_copy wellNamed mem_workplaces_output isName (copy_of_copyFile copied)
    have moved := confined.withFiles keeps inside
    intro state same
    rw [run_bind, same]
    exact ⟨moved.stays, moved.resources, moved.shipping⟩
  · exact Meets.start (confined_record keeps _) confined

theorem confined_packageVerbatim :
    Maintains (Confined tool request others origin) (packageVerbatim tool request) := by
  unfold packageVerbatim
  apply meets_get_bind
  intro start confined
  apply Meets.start _ confined
  split
  · exact Meets.throw fun _ => id
  · rename_i names listed
    apply Meets.forM_keeping
    intro name member
    exact confined_exportFile keeps
      (isName_of_mem_listFiles confined.stays.wellNamed listed name member)

theorem confined_packageCompressed (archives : Archiver.KeepsToOutput tool.archive)
    (isName : IsName request.project.windowsName) :
    Maintains (Confined tool request others origin) (packageCompressed tool request) := by
  have joins : Maintains (Confined tool request others origin) (joinExecutable tool request) := by
    apply meets_get_bind
    intro start confined
    apply Meets.start _ confined
    dsimp only
    rw [windowsName_of_shipping confined.shipping]
    have writes : Maintains (Confined tool request others origin) (changingFiles fun files =>
        Package.concatenate files (request.options.output.child request.project.windowsName)
          [tool.settings.stubFile, tool.settings.stubSettingsFile,
            tool.workingDirectory.child archiveName]) := by
      apply confined_changingFiles keeps
      intro before wellNamed
      exact (Package.concatenate_writesAt before _ _).steps wellNamed mem_workplaces_output isName
    apply Meets.bind writes
    intro joined
    cases joined with
    | error cause => exact confined_record keeps _
    | ok skipped =>
        have adds : Maintains (Confined tool request others origin)
            (addArtifact (request.options.output.child request.project.windowsName)) :=
          fun _ confined => ⟨confined.stays, confined.resources, confined.shipping⟩
        apply Meets.bind adds
        intro _
        exact Meets.forM_keeping fun _ _ => confined_record keeps _
  have writes : Maintains (Confined tool request others origin) (changingFiles fun files =>
      tool.archive files tool.workingDirectory (tool.workingDirectory.child archiveName)) := by
    apply confined_changingFiles keeps
    intro before wellNamed
    exact (archives before tool.workingDirectory _).steps wellNamed mem_workplaces_working
      (by decide)
  unfold packageCompressed
  apply Meets.bind (confined_say keeps _ _)
  intro _
  apply Meets.bind writes
  intro archived
  cases archived with
  | error cause =>
      apply Meets.bind (confined_record keeps _)
      intro _
      exact joins
  | ok => exact joins

theorem confined_package (archives : Archiver.KeepsToOutput tool.archive)
    (plain : PlainNames tool request) :
    Maintains (Confined tool request others origin) (package tool request) := by
  have fills : Maintains (Confined tool request others origin)
      (if request.options.isCompressed then packageCompressed tool request
        else packageVerbatim tool request) := by
    split
    · rename_i compressed
      exact confined_packageCompressed keeps archives (plain.executable compressed)
    · exact confined_packageVerbatim keeps
  have creates : Maintains (Confined tool request others origin)
      (changingFiles fun files => files.createDirectories request.options.output) :=
    confined_changingFiles keeps fun _ _ => steps_createDirectories mem_workplaces_output
  unfold package
  apply Meets.bind creates
  intro created
  cases created with
  | error cause =>
      apply Meets.bind (confined_record keeps _)
      intro _
      exact fills
  | ok => exact fills

/-! ## A whole export -/

theorem confined_workOf (packs : Packer.KeepsToOutput tool.pack)
    (archives : Archiver.KeepsToOutput tool.archive) (plain : PlainNames tool request)
    (stage : Stage) :
    Maintains (Confined tool request others origin) (workOf tool request stage) := by
  cases stage with
  | start => exact confined_say keeps _ _
  | validateTargets =>
      apply Meets.bind (confined_progress keeps _)
      intro _
      split
      · exact .throw fun _ => id
      · exact .pure fun _ => id
  | prepareResources => exact confined_prepareResources keeps
  | compileUnits => exact confined_compileUnits keeps
  | copyResources => exact confined_copyResources keeps
  | stripAndEncrypt => exact confined_stripAndEncrypt keeps packs
  | link => exact (lasting_confined keeps).checked.link isLocal_linkJob
  | copyPlatformFiles => exact confined_copyPlatformFiles keeps plain
  | package => exact confined_package keeps archives plain
  | done => exact confined_progress keeps _

theorem confined_exportStages (packs : Packer.KeepsToOutput tool.pack)
    (archives : Archiver.KeepsToOutput tool.archive) (plain : PlainNames tool request) :
    Maintains (Confined tool request others origin) (exportStages tool request) := by
  have work : ∀ stage, Maintains (Confined tool request others origin)
      (workOf tool request stage) := confined_workOf keeps packs archives plain
  apply Meets.bind (work .start)
  intro _
  apply maintains_goThrough
  · exact fun _ _ confined => ⟨confined.stays, confined.resources, confined.shipping⟩
  · exact fun stage _ => work stage

theorem confined_conclude (report : ExportReport) :
    Maintains (Confined tool request others origin) (conclude request report) := by
  unfold conclude
  dsimp only
  cases report.failure with
  | some error =>
      apply Meets.bind (confined_tell keeps _)
      intro _
      exact confined_tell keeps _
  | none => exact confined_tell keeps _

end Confined

/-- If the names of what is shipped are those of entries of a directory, then nothing else happens
to the files during an export than what may happen: the export itself changes entries of the
directories that it works in, whatever its project, its options and its extensions are. -/
theorem exportGame_keepsInside (tool : ExportTool) (request : ExportRequest) (workshop : Workshop)
    (wellNamed : workshop.world.files.WellNamed)
    (keeps : KeepsNames tool request workshop.queue.jobs)
    (packs : Packer.KeepsToOutput tool.pack) (archives : Archiver.KeepsToOutput tool.archive)
    (plain : PlainNames tool request) :
    Happenings tool request workshop.queue.jobs workshop.world.files
      (exportGame tool request workshop).workshop.world.files := by
  have start : Confined tool request workshop.queue.jobs workshop.world.files
      (.initial workshop request.project) :=
    ⟨⟨.refl, wellNamed, fun _ => .inl⟩, ResourceNames.apart_empty, rfl⟩
  have stages := confined_exportStages keeps packs archives plain _ start
  unfold exportGame
  generalize (exportStages tool request).run.run (.initial workshop request.project) = outcome
    at stages ⊢
  rcases outcome with ⟨result, state⟩
  have confined : Confined tool request workshop.queue.jobs workshop.world.files state := by
    cases result with
    | error error => exact stages
    | ok => exact stages
  have concluded := confined_conclude keeps (reportOf state result) state confined
  dsimp only
  generalize (conclude request (reportOf state result)).run.run state = outcome at concluded ⊢
  rcases outcome with ⟨told, final⟩
  cases told with
  | error error => exact concluded.stays.leads
  | ok => exact concluded.stays.leads

/-! ## A launcher -/

def launcherRequest (executable : String) : ExportRequest where
  project := { pictureGame "hero.png" with resources := [], linuxExecutable := executable }
  options := ⟨⟨"/out"⟩, .only .linux, false, false⟩
  caller := ⟨0, []⟩
  tokenId := 1
  react := fun _ world => world

def runtimeWorkshop : Workshop where
  world := ⟨⟨[(["base"], .directory), (["base", "CppPlatform"], .directory),
    (["base", "CppPlatform", "Runtime"], .directory),
    (["base", "CppPlatform", "Runtime", "ExeLinux"], .file [1]),
    (["base", "CppPlatform", "Runtime", "PlayLinux"], .file [2]),
    (["base", "CppPlatform", "Runtime", "libGDCpp.so"], .file [3])], []⟩, []⟩
  queue := .idle ⟨"/log"⟩ none

theorem keepsNames_launcherRequest (executable : String) :
    KeepsNames obligingTool (launcherRequest executable) runtimeWorkshop.queue.jobs where
  host := fun _ _ => id
  compiler := by
    intro call log files wellNamed
    change ((files.write call.output []).toOption.getD files).WellNamed
    cases written : files.write call.output [] with
    | error cause => exact wellNamed
    | ok after => exact wellNamed.write written
  others := by
    intro job member
    cases member

/-- A launcher that is named as an entry of a directory can be is written inside. -/
theorem exportGame_keepsInside_launcher :
    (∀ file ∈ platformFiles obligingTool (launcherRequest "Hero").options
      (launcherRequest "Hero").project, IsName file.name) ∧
    Happenings obligingTool (launcherRequest "Hero") runtimeWorkshop.queue.jobs
      runtimeWorkshop.world.files
      (exportGame obligingTool (launcherRequest "Hero") runtimeWorkshop).workshop.world.files := by
  have names : ∀ file ∈ platformFiles obligingTool (launcherRequest "Hero").options
      (launcherRequest "Hero").project, IsName file.name := by decide +kernel
  have wellNamed : runtimeWorkshop.world.files.WellNamed :=
    wellNamed_of_nodes nofun (by decide +kernel)
  have archives : Archiver.KeepsToOutput obligingTool.archive := fun _ _ _ => .inl rfl
  have plain : PlainNames obligingTool (launcherRequest "Hero") := ⟨names, nofun⟩
  exact ⟨names, exportGame_keepsInside obligingTool (launcherRequest "Hero") runtimeWorkshop
    wellNamed (keepsNames_launcherRequest "Hero") Container.pack_keepsToOutput archives plain⟩

/-- A launcher whose name leads out of the working directory is written where it leads to, and the
export ends without any error. -/
theorem launcher_escapes :
    let ended := exportGame obligingTool (launcherRequest "../outside") runtimeWorkshop
    ended.report.isSuccess = true ∧
      runtimeWorkshop.world.files.node? ["outside"] = none ∧
      ended.workshop.world.files.node? ["outside"] = some (.file [2]) ∧
      ended.workshop.queue.calls.map (·.output) = [⟨"/work/Code.so"⟩] ∧
      ∀ directory ∈ obligingTool.workplaces (launcherRequest "../outside").options,
        ∀ here node, ended.workshop.world.files.find true directory = .ok (here, node) →
          ¬ here <+: ["outside"] := by
  have run : let ended := exportGame obligingTool (launcherRequest "../outside") runtimeWorkshop
    ended.report.isSuccess = true ∧
      runtimeWorkshop.world.files.node? ["outside"] = none ∧
      ended.workshop.world.files.node? ["outside"] = some (.file [2]) ∧
      ended.workshop.queue.calls.map (·.output) = [⟨"/work/Code.so"⟩] ∧
      ∀ directory ∈ obligingTool.workplaces (launcherRequest "../outside").options,
        (ended.workshop.world.files.find true directory).toOption.all
          (fun place => !place.1.isPrefixOf ["outside"]) = true := by
    decide +kernel
  rcases run with ⟨success, before, after, calls, apart⟩
  refine ⟨success, before, after, calls, fun directory member here node found below => ?_⟩
  have outside := apart directory member
  rw [found] at outside
  have isPrefix := List.isPrefixOf_iff_prefix.mpr below
  simp [Except.toOption, isPrefix] at outside

end GameExport
