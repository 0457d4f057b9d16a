import GameExport.Proofs.Export.Sealing

/-! # When the container holds all resources

An export works in the directory that the resources are copied to, under names of its own. Main
statement: a container that was packed without an error holds the descriptor and every resource,
each once, and nothing else, exactly if no resource has been given one of those names.
-/

namespace GameExport

open ExportM FileTree

variable (tool : ExportTool) (request : ExportRequest)

def ownNames : List String := [plainDescriptor, encryptedDescriptor, containerName]

def untilCompiling : ExportM Unit := do
  workOf tool request .start
  goThrough tool request [.validateTargets, .prepareResources]

/-- An export that has packed the container without any error: the states in which it was done with
preparing, compiling, copying and packing. -/
structure GetsThrough (workshop : Workshop) (prepared compiled copied packed : ExportState) :
    Prop where
  prepares : (untilCompiling tool request).run.run (.initial workshop request.project) =
    (.ok (), prepared)
  compiles : (goThrough tool request [.compileUnits]).run.run prepared = (.ok (), compiled)
  copies : (goThrough tool request [.copyResources]).run.run compiled = (.ok (), copied)
  packs : (goThrough tool request [.stripAndEncrypt]).run.run copied = (.ok (), packed)
  spotless : packed.warnings = []

/-- A directory that holds, under the same path, what it held before. -/
structure Undisturbed (directory : Path) (before after : FileTree) : Prop where
  found : after.find true directory = before.find true directory
  children : ∀ here node name, before.find true directory = .ok (here, node) →
    after.node? (here ++ [name]) = before.node? (here ++ [name])

def Node.size : Node → Nat
  | .file content => content.length
  | _ => 0

def FileTree.IsCounted (tree : FileTree) : Prop :=
  ∀ entry ∈ tree.nodes, entry.2.size < UInt64.size

instance (tree : FileTree) : Decidable tree.IsCounted :=
  inferInstanceAs (Decidable (∀ entry ∈ tree.nodes, entry.2.size < UInt64.size))

/-- A container with a descriptor and the resources, each once, and nothing else. `before` and
`after` are the files before and after the resources were copied. -/
structure Container.Carries (container : Container) (descriptor : Bytes)
    (resources : List (Path × String)) (before after : FileTree) : Prop where
  names : (container.entries.map (·.name)).Perm (encryptedDescriptor :: resources.map Prod.snd)
  distinct : (container.entries.map (·.name)).Nodup
  descriptor : ⟨encryptedDescriptor, descriptor⟩ ∈ container.entries
  contents : ∀ resource ∈ resources, ∃ content,
    after.read resource.1 = .ok content ∧ ⟨resource.2, content⟩ ∈ container.entries
  /-- A file that was there before anything was copied is carried as it was. -/
  originals : ∀ resource ∈ resources, ∀ content, before.read resource.1 = .ok content →
    ⟨resource.2, content⟩ ∈ container.entries

variable {tool request}

theorem goThrough_append (tool : ExportTool) (request : ExportRequest)
    (stages others : List Stage) : goThrough tool request (stages ++ others) = (do
      goThrough tool request stages
      goThrough tool request others) := by
  unfold goThrough
  exact List.forM_append

theorem exportStages_compiling : exportStages tool request = (do
    untilCompiling tool request
    goThrough tool request [.compileUnits]
    goThrough tool request
      [.copyResources, .stripAndEncrypt, .link, .copyPlatformFiles, .package, .done]) := by
  rw [← goThrough_append, untilCompiling, bind_assoc, ← goThrough_append]
  rfl

theorem run_exportStages {workshop : Workshop} {prepared compiled : ExportState}
    (prepares : (untilCompiling tool request).run.run (.initial workshop request.project) =
      (.ok (), prepared))
    (compiles : (goThrough tool request [.compileUnits]).run.run prepared = (.ok (), compiled)) :
    (exportStages tool request).run.run (.initial workshop request.project) =
      (goThrough tool request [.copyResources, .stripAndEncrypt, .link, .copyPlatformFiles,
        .package, .done]).run.run compiled := by
  rw [exportStages_compiling, run_bind, prepares]
  simp only [run_bind, compiles]

/-- An export goes on with linking where it was done with packing. -/
theorem GetsThrough.goesOn {workshop : Workshop} {prepared compiled copied packed : ExportState}
    (through : GetsThrough tool request workshop prepared compiled copied packed) :
    (exportStages tool request).run.run (.initial workshop request.project) =
      (goThrough tool request [.link, .copyPlatformFiles, .package, .done]).run.run packed := by
  have stages : goThrough tool request
      [.copyResources, .stripAndEncrypt, .link, .copyPlatformFiles, .package, .done] = (do
        goThrough tool request [.copyResources]
        goThrough tool request [.stripAndEncrypt]
        goThrough tool request [.link, .copyPlatformFiles, .package, .done]) := by
    rw [← goThrough_append, ← goThrough_append]
    rfl
  rw [run_exportStages through.prepares through.compiles, stages, run_bind, through.copies]
  simp only [run_bind, through.packs]

/-! ## What has been packed -/

section Packed

variable {directory : Path} {before after sealed : FileTree} {resources : List (Path × String)}
  {contents : String → Option Bytes} {project : Project} {here : Location} {names : List String}
  {bytes : Bytes}

theorem mem_ownNames {name : String} :
    name ∈ ownNames ↔
      name = plainDescriptor ∨ name = encryptedDescriptor ∨ name = containerName := by
  simp [ownNames]

theorem described_eq_some {name : String} :
    (∃ content, described project contents name = some content) ↔
      name = encryptedDescriptor ∨
        name ≠ plainDescriptor ∧ ∃ content, contents name = some content := by
  by_cases isEncrypted : name = encryptedDescriptor
  · rw [isEncrypted, described_encrypted]
    simp
  · by_cases isPlain : name = plainDescriptor
    · rw [isPlain, described_plain]
      simp [plainDescriptor, encryptedDescriptor]
    · rw [described_of_ne project contents isPlain isEncrypted]
      simp [isPlain, isEncrypted]

theorem Packed.load_eq (packed : Packed directory here contents names bytes names sealed)
    (counted : sealed.IsCounted) (free : containerName ∉ names) :
    Container.load sealed (directory.child containerName) =
      .ok ⟨Container.entriesOf contents names⟩ := by
  rcases packed.encodes free with ⟨rfl, fits⟩
  have taken : sealed.node? (here ++ [containerName]) =
      some (.file (Container.encode ⟨Container.entriesOf contents names⟩)) := by
    apply packed.flat.node?_eq_some
    rw [without, if_neg free, Function.update_self]
  have reads := read_eq_ok_iff.mpr ⟨_, find_of_opening packed.opens taken⟩
  have small := counted _ (mem_nodes_of_node? (by simp) taken)
  exact Container.load_of_read reads small fits

theorem Packed.free_of_load (packed : Packed directory here contents names bytes names sealed)
    {container : Container}
    (loads : Container.load sealed (directory.child containerName) = .ok container) :
    containerName ∉ names := by
  intro member
  rw [Container.load] at loads
  cases reads : sealed.read (directory.child containerName) with
  | error cause =>
      rw [reads] at loads
      cases loads
  | ok content =>
      have held := packed.flat.read_eq isName_containerName reads
      rw [without, if_pos member] at held
      cases held

theorem Packed.mem_names
    (packed : Packed directory here (described project contents) names bytes names sealed)
    (copied : Copied directory before resources contents after) {name : String} :
    name ∈ names ↔ name = encryptedDescriptor ∨
      name ≠ plainDescriptor ∧ name ∈ resources.map Prod.snd := by
  rw [packed.listed, described_eq_some, copied.names]

theorem carries_of_harmless
    (packed : Packed directory here (described project contents) names bytes names sealed)
    (copied : Copied directory before resources contents after)
    (distinct : (resources.map Prod.snd).Nodup)
    (harmless : ∀ resource ∈ resources, resource.2 ∉ ownNames) :
    Container.Carries ⟨Container.entriesOf (described project contents) names⟩ project.shipped
      resources before after := by
  have notOwn {name : String} (member : name ∈ resources.map Prod.snd) : name ∉ ownNames := by
    rcases List.mem_map.mp member with ⟨resource, among, rfl⟩
    exact harmless resource among
  have notEncrypted : encryptedDescriptor ∉ resources.map Prod.snd :=
    fun member => notOwn member (mem_ownNames.mpr (.inr (.inl rfl)))
  have notPlain : plainDescriptor ∉ resources.map Prod.snd :=
    fun member => notOwn member (mem_ownNames.mpr (.inl rfl))
  have carried : ∀ resource ∈ resources, ∃ content, after.read resource.1 = .ok content ∧
      ⟨resource.2, content⟩ ∈ Container.entriesOf (described project contents) names := by
    intro resource among
    have member : resource.2 ∈ resources.map Prod.snd := List.mem_map_of_mem among
    have otherThanPlain : resource.2 ≠ plainDescriptor := fun same => notPlain (same ▸ member)
    have otherThanEncrypted : resource.2 ≠ encryptedDescriptor :=
      fun same => notEncrypted (same ▸ member)
    rcases copied.copies resource among with ⟨content, reads, held⟩
    refine ⟨content, reads, List.mem_map.mpr ⟨resource.2, ?_, ?_⟩⟩
    · exact (packed.mem_names copied).mpr (.inr ⟨otherThanPlain, member⟩)
    · rw [described_of_ne project contents otherThanPlain otherThanEncrypted, held]
      rfl
  constructor
  · rw [Container.map_name_entriesOf]
    apply (List.perm_ext_iff_of_nodup packed.distinct (List.nodup_cons.mpr
      ⟨notEncrypted, distinct⟩)).mpr
    intro name
    rw [packed.mem_names copied, List.mem_cons]
    constructor
    · rintro (same | ⟨_, member⟩)
      · exact .inl same
      · exact .inr member
    · rintro (same | member)
      · exact .inl same
      · exact .inr ⟨fun same => notPlain (same ▸ member), member⟩
  · rw [Container.map_name_entriesOf]
    exact packed.distinct
  · refine List.mem_map.mpr ⟨encryptedDescriptor, ?_, ?_⟩
    · exact (packed.mem_names copied).mpr (.inl rfl)
    · rw [described_encrypted]
      rfl
  · exact carried
  · intro resource among content original
    rcases carried resource among with ⟨other, reads, member⟩
    rw [copied.reads _ _ original] at reads
    cases reads
    exact member

theorem harmless_of_carries
    (packed : Packed directory here (described project contents) names bytes names sealed)
    (free : containerName ∉ names)
    (carries : Container.Carries ⟨Container.entriesOf (described project contents) names⟩
      project.shipped resources before after) :
    ∀ resource ∈ resources, resource.2 ∉ ownNames := by
  have whole := carries.names
  rw [Container.map_name_entriesOf] at whole
  intro resource among own
  have member : resource.2 ∈ resources.map Prod.snd := List.mem_map_of_mem among
  have listed : resource.2 ∈ names := whole.mem_iff.mpr (List.mem_cons_of_mem _ member)
  rcases mem_ownNames.mp own with isPlain | isEncrypted | isContainer
  · -- the plain descriptor is written over it, and removed
    rcases (packed.listed _).mp listed with ⟨content, held⟩
    rw [isPlain, described_plain] at held
    cases held
  · -- the encrypted descriptor is written over it, and one entry cannot be both
    have distinct := whole.nodup_iff.mp packed.distinct
    exact (List.nodup_cons.mp distinct).1 (isEncrypted ▸ member)
  · -- the container is written over it, and removed with what it was made from
    exact free (isContainer ▸ listed)

end Packed

/-! ## The stages -/

section Stages

variable {workshop : Workshop} {prepared compiled copied packed : ExportState}

theorem meets_goThrough {stage : Stage} {start : ExportState} {after : Unit → ExportState → Prop}
    {ended : ExportError → ExportState → Prop}
    (work : Meets (fun state => state = { start with stages := start.stages ++ [stage] })
      (workOf tool request stage) after ended) :
    Meets (fun state => state = start) (goThrough tool request [stage]) after ended := by
  have entered : Meets (fun state => state = start)
      (do
        enter stage
        workOf tool request stage) after ended := meets_modify_bind work
  apply Meets.bind entered
  intro _
  exact .pure fun _ => id

theorem maintains_goThrough {property : ExportState → Prop} {stages : List Stage}
    (entered : ∀ state stages, property state → property { state with stages := stages })
    (work : ∀ stage ∈ stages, Maintains property (workOf tool request stage)) :
    Maintains property (goThrough tool request stages) := by
  apply Meets.forM_keeping
  intro stage member
  have enters : Maintains property (enter stage) := fun state => entered state _
  apply Meets.bind enters
  intro _
  exact work stage member

theorem keeps_validateTargets : Keeps ExportState.core (validateTargets request) := by
  unfold validateTargets
  apply Keeps.bind (keeps_progress request _)
  intro _
  split
  · exact .throw _
  · exact .pure _

theorem maintains_untilCompiling : Maintains NamesApart (untilCompiling tool request) := by
  apply Meets.bind (namesApart_of_core (keeps_say request _ _))
  intro _
  apply maintains_goThrough
  · exact fun _ _ => id
  · intro stage member
    rcases List.mem_pair.mp member with rfl | rfl
    · exact namesApart_of_core keeps_validateTargets
    · exact namesApart_prepareResources tool request

theorem meets_untilCompiling (quiet : request.IsQuiet) :
    Meets (fun _ => True) (untilCompiling tool request) (fun _ => Clean (Emptied tool))
      fun _ _ => True := by
  have prepares : Meets (fun _ => True)
      (do
        enter .prepareResources
        workOf tool request .prepareResources)
      (fun _ => Clean (Emptied tool)) fun _ _ => True := by
    apply Meets.bind (Meets.anything (enter _))
    intro _
    exact meets_prepareResources_emptied tool request quiet
  apply Meets.bind (Meets.anything (workOf tool request .start))
  intro _
  apply Meets.bind (Meets.anything (do
    enter .validateTargets
    workOf tool request .validateTargets))
  intro _
  apply Meets.bind prepares
  intro _
  exact .pure fun _ => id

namespace GetsThrough

variable (through : GetsThrough tool request workshop prepared compiled copied packed)

include through

theorem follows : Follows prepared compiled := by
  have start : Follows prepared { prepared with stages := prepared.stages ++ [.compileUnits] } :=
    ⟨rfl, id⟩
  have units : Maintains (Follows prepared) (workOf tool request .compileUnits) :=
    follows_compileUnits
  exact (meets_goThrough (units.start start)).of_ok rfl through.compiles

theorem apart : compiled.resources.Apart := by
  have start : NamesApart (.initial workshop request.project) := ResourceNames.apart_empty
  have apart : NamesApart prepared := maintains_untilCompiling.of_ok start through.prepares
  rw [through.follows.1]
  exact apart

theorem project_eq : copied.project = compiled.project := by
  have start : ({ compiled with stages := compiled.stages ++ [.copyResources] } :
      ExportState).core.project = compiled.project := rfl
  have copies : Maintains (fun state => state.core.project = compiled.project)
      (workOf tool request .copyResources) :=
    (keeps_copyResources tool request).maintains fun core => core.project = compiled.project
  exact (meets_goThrough (copies.start start)).of_ok rfl through.copies

theorem empty (quiet : request.IsQuiet) (kept : compiled.files.Kept)
    (undisturbed : Undisturbed tool.workingDirectory prepared.files compiled.files) :
    Clean (Holding tool.workingDirectory fun _ => none) compiled := by
  intro spotless
  have emptied := (meets_untilCompiling quiet).of_ok trivial through.prepares
  rcases emptied (through.follows.2 spotless) with ⟨notEmpty, empty⟩
  refine ⟨kept, notEmpty, fun here node found name => ?_⟩
  rw [undisturbed.found] at found
  refine Option.eq_none_iff_forall_ne_some.mpr fun left taken => ?_
  have isName := kept.isName_of_node? taken name (by simp)
  rw [undisturbed.children here node name found, empty here node found name isName] at taken
  cases taken

theorem copiedFiles (quiet : request.IsQuiet) (kept : compiled.files.Kept)
    (undisturbed : Undisturbed tool.workingDirectory prepared.files compiled.files) :
    Clean (fun files => ∃ contents,
      Copied tool.workingDirectory compiled.files compiled.resources.entries contents files)
      copied := by
  have work : Meets
      (fun state => state = { compiled with stages := compiled.stages ++ [.copyResources] })
      (workOf tool request .copyResources)
      (fun _ => Clean fun files => ∃ contents,
        Copied tool.workingDirectory compiled.files compiled.resources.entries contents files)
      fun _ _ => True :=
    meets_copyResources quiet through.apart (through.empty quiet kept undisturbed)
  exact (meets_goThrough work).of_ok rfl through.copies

theorem packedFiles (packer : tool.pack = Container.pack) (quiet : request.IsQuiet)
    (kept : compiled.files.Kept)
    (undisturbed : Undisturbed tool.workingDirectory prepared.files compiled.files) :
    ∃ contents,
      Copied tool.workingDirectory compiled.files compiled.resources.entries contents
        copied.files ∧
      ∃ here names bytes, Packed tool.workingDirectory here (described compiled.project contents)
        names bytes names packed.files := by
  let known (contents : String → Option Bytes) : Prop :=
    Copied tool.workingDirectory compiled.files compiled.resources.entries contents copied.files
  have start : Clean
      (fun files => ∃ contents, known contents ∧ Holding tool.workingDirectory contents files)
      { copied with stages := copied.stages ++ [.stripAndEncrypt] } := by
    intro spotless
    rcases through.copiedFiles quiet kept undisturbed spotless with ⟨contents, isKnown⟩
    exact ⟨contents, isKnown, isKnown.holding⟩
  let final (contents : String → Option Bytes) : Prop :=
    ∃ earlier, known earlier ∧ contents = described compiled.project earlier
  have areNames : ∀ contents, final contents →
      ∀ name content, contents name = some content → IsName name := by
    rintro contents ⟨earlier, isKnown, rfl⟩ name content held
    rcases described_eq_some.mp ⟨content, held⟩ with rfl | ⟨_, copied⟩
    · exact isName_encryptedDescriptor
    · rcases List.mem_map.mp ((isKnown.names name).mp copied) with ⟨entry, member, rfl⟩
      exact through.apart.named entry member
  have writes := meets_writeDescriptor quiet start
  have said : Maintains
      (Clean fun files => ∃ contents, final contents ∧ ∃ here,
        FlatDirectory tool.workingDirectory here contents files)
      (say request copyingMessage (some "Step 3 out of 3")) := maintains_say quiet _ _
  have work : Meets
      (fun state => state = { copied with stages := copied.stages ++ [.stripAndEncrypt] })
      (workOf tool request .stripAndEncrypt)
      (fun _ => Clean fun files => ∃ contents, final contents ∧ ∃ here names bytes,
        Packed tool.workingDirectory here contents names bytes names files)
      fun _ _ => True := by
    apply Meets.bind writes
    intro _
    apply Meets.bind (said.meets.weaken ?_ (fun _ _ => id) fun _ _ => id)
    · intro _
      exact meets_packWorkingFiles_packed packer areNames
    · intro state clean spotless
      rcases clean spotless with ⟨contents, isKnown, flat⟩
      have same : copied.project = compiled.project := through.project_eq
      exact ⟨_, ⟨contents, isKnown, rfl⟩, same ▸ flat⟩
  have clean := (meets_goThrough work).of_ok rfl through.packs
  rcases clean through.spotless with ⟨_, ⟨contents, isKnown, rfl⟩, packed⟩
  exact ⟨contents, isKnown, packed⟩

end GetsThrough

end Stages

/-- An export that has packed the container without any error has lost no resource exactly if none
was given a name that the export itself uses. -/
theorem carries_iff_harmless (tool : ExportTool) (request : ExportRequest) (workshop : Workshop)
    {prepared compiled copied packed : ExportState}
    (through : GetsThrough tool request workshop prepared compiled copied packed)
    (packer : tool.pack = Container.pack) (quiet : request.IsQuiet)
    (undisturbed : Undisturbed tool.workingDirectory prepared.files compiled.files)
    (kept : compiled.files.Kept) (counted : packed.files.IsCounted) :
    (∃ container, Container.load packed.files (tool.workingDirectory.child containerName) =
        .ok container ∧
      container.Carries compiled.project.shipped compiled.resources.entries compiled.files
        copied.files) ↔
      ∀ resource ∈ compiled.resources.entries, resource.2 ∉ ownNames := by
  rcases through.packedFiles packer quiet kept undisturbed with
    ⟨contents, isCopied, here, names, bytes, isPacked⟩
  constructor
  · rintro ⟨container, loads, carries⟩
    have free := isPacked.free_of_load loads
    rw [isPacked.load_eq counted free] at loads
    cases loads
    exact harmless_of_carries isPacked free carries
  · intro harmless
    have free : containerName ∉ names := by
      intro member
      rcases (isPacked.mem_names isCopied).mp member with same | ⟨_, given⟩
      · exact absurd same (by decide)
      · rcases List.mem_map.mp given with ⟨resource, among, same⟩
        exact harmless resource among (mem_ownNames.mpr (.inr (.inr same)))
    exact ⟨_, isPacked.load_eq counted free,
      carries_of_harmless isPacked isCopied through.apart.distinct harmless⟩

/-! ## A picture -/

def pictureGame (name : String) : Project where
  name := "Picture"
  file := ⟨"/game/game.json"⟩
  scenes := []
  externalEvents := []
  sourceFiles := []
  resources := [⟨"Picture", "image", name, true⟩]
  objects := []
  extensions := []
  windowsExecutable := ""
  linuxExecutable := ""
  macExecutable := ""
  usesExternalSources := false
  editor := none

def pictureRequest (name : String) : ExportRequest where
  project := pictureGame name
  options := ⟨⟨"/out"⟩, TargetSet.empty.insert .linux, false, false⟩
  caller := ⟨0, []⟩
  tokenId := 1
  react := fun _ world => world

def pictureWorkshop (name : String) : Workshop where
  world := ⟨⟨[(["work"], .directory), (["work", "old"], .file [9]), (["game"], .directory),
    (["game", name], .file [1, 2, 3])], []⟩, []⟩
  queue := .idle ⟨"/log"⟩ none

def stateAfter (part : ExportM Unit) (state : ExportState) : ExportState := (part.run.run state).2

theorem run_eq_of_isOk {part : ExportM Unit} {state : ExportState}
    (succeeds : (part.run.run state).1.isOk = true) :
    part.run.run state = (.ok (), stateAfter part state) := by
  rw [stateAfter]
  generalize part.run.run state = outcome at succeeds
  rcases outcome with ⟨result, final⟩
  cases result with
  | error error => cases succeeds
  | ok => rfl

section States

variable (name : String)

def picturePrepared : ExportState :=
  stateAfter (untilCompiling obligingTool (pictureRequest name))
    (.initial (pictureWorkshop name) (pictureRequest name).project)

def pictureCompiled : ExportState :=
  stateAfter (goThrough obligingTool (pictureRequest name) [.compileUnits]) (picturePrepared name)

def pictureCopied : ExportState :=
  stateAfter (goThrough obligingTool (pictureRequest name) [.copyResources]) (pictureCompiled name)

def picturePacked : ExportState :=
  stateAfter (goThrough obligingTool (pictureRequest name) [.stripAndEncrypt]) (pictureCopied name)

def PictureGetsThrough : Prop :=
  GetsThrough obligingTool (pictureRequest name) (pictureWorkshop name) (picturePrepared name)
    (pictureCompiled name) (pictureCopied name) (picturePacked name)

def pictureContainer : Except PackageError Container :=
  Container.load (picturePacked name).files (obligingTool.workingDirectory.child containerName)

def CarriesPicture (container : Container) : Prop :=
  container.Carries (pictureCompiled name).project.shipped (pictureCompiled name).resources.entries
    (pictureCompiled name).files (pictureCopied name).files

end States

/-- A picture that is called otherwise than what the export itself keeps is in the container. -/
theorem carries_iff_harmless_hero :
    PictureGetsThrough "hero.png" ∧
      ∃ container, pictureContainer "hero.png" = .ok container ∧
        CarriesPicture "hero.png" container := by
  have packs : ((goThrough obligingTool (pictureRequest "hero.png") [.stripAndEncrypt]).run.run
        (pictureCopied "hero.png")).1.isOk = true ∧
      (picturePacked "hero.png").warnings.isEmpty = true ∧
      (picturePacked "hero.png").files.IsCounted := by decide +kernel
  rcases packs with ⟨packs, spotless, counted⟩
  have through : PictureGetsThrough "hero.png" := by
    constructor
    · exact run_eq_of_isOk (by decide +kernel)
    · exact run_eq_of_isOk (by decide +kernel)
    · exact run_eq_of_isOk (by decide +kernel)
    · exact run_eq_of_isOk packs
    · exact List.isEmpty_iff.mp spotless
  have before : (picturePrepared "hero.png").files.find true obligingTool.workingDirectory =
      .ok (["work"], .directory) := eq_ok_of_toOption (by decide +kernel)
  have after : (pictureCompiled "hero.png").files.find true obligingTool.workingDirectory =
      .ok (["work"], .directory) := eq_ok_of_toOption (by decide +kernel)
  have undisturbed : Undisturbed obligingTool.workingDirectory (picturePrepared "hero.png").files
      (pictureCompiled "hero.png").files := by
    refine ⟨after.trans before.symm, fun here node name found => ?_⟩
    rw [before] at found
    cases found
    rw [node?_eq_none_of_childrenOf (by decide +kernel),
      node?_eq_none_of_childrenOf (by decide +kernel)]
  have kept : (pictureCompiled "hero.png").files.Kept := by
    refine ⟨⟨?_, ?_⟩, ?_, ?_⟩
    · decide +kernel
    · decide +kernel
    · decide +kernel
    · decide +kernel
  refine ⟨through, ?_⟩
  apply (carries_iff_harmless obligingTool (pictureRequest "hero.png") (pictureWorkshop "hero.png")
    through rfl (fun _ _ => rfl) undisturbed kept counted).mpr
  decide +kernel

/-- A picture that is called as the descriptor is before it is encrypted is lost without any
error. -/
theorem not_carries_descriptor :
    PictureGetsThrough "GDProjectSrcFile.gdg" ∧
      (pictureCompiled "GDProjectSrcFile.gdg").resources.entries =
        [(⟨"/game/GDProjectSrcFile.gdg"⟩, "GDProjectSrcFile.gdg")] ∧
      ∃ container, pictureContainer "GDProjectSrcFile.gdg" = .ok container ∧
        container.entries.map (·.name) = ["src"] ∧
        ¬ CarriesPicture "GDProjectSrcFile.gdg" container := by
  have resources : (pictureCompiled "GDProjectSrcFile.gdg").resources.entries =
      [(⟨"/game/GDProjectSrcFile.gdg"⟩, "GDProjectSrcFile.gdg")] := by decide +kernel
  have packs : ((goThrough obligingTool (pictureRequest "GDProjectSrcFile.gdg")
        [.stripAndEncrypt]).run.run (pictureCopied "GDProjectSrcFile.gdg")).1.isOk = true ∧
      (picturePacked "GDProjectSrcFile.gdg").warnings.isEmpty = true ∧
      ((pictureContainer "GDProjectSrcFile.gdg").toOption.map
        fun container => container.entries.map (·.name)) = some ["src"] := by decide +kernel
  rcases packs with ⟨packs, spotless, names⟩
  rcases Option.map_eq_some_iff.mp names with ⟨container, loads, packed⟩
  refine ⟨?_, resources, container, eq_ok_of_toOption loads, packed, fun carries => ?_⟩
  · constructor
    · exact run_eq_of_isOk (by decide +kernel)
    · exact run_eq_of_isOk (by decide +kernel)
    · exact run_eq_of_isOk (by decide +kernel)
    · exact run_eq_of_isOk packs
    · exact List.isEmpty_iff.mp spotless
  · have lengths := carries.names.length_eq
    rw [packed, resources] at lengths
    cases lengths

end GameExport
