import GameExport.Proofs.Export.Confinement
import GameExport.Proofs.Export.LinkGate
import GameExport.Proofs.FileTree.Plain

/-! # What is put next to the container

The container, the library and the platform files come to stand in one directory. Main statements:
packing leaves what the packer wrote, and if the names of the platform files are apart from each
other and from the rest, then copying them leaves the rest alone and each as it was installed.
-/

namespace GameExport

open ExportM FileTree

variable {tool : ExportTool} {request : ExportRequest} {here : Location}

/-! ## Rules -/

def Ships (request : ExportRequest) (state : ExportState) : Prop :=
  state.project.shipping = request.project.shipping

theorem ships_of_core {α : Type} {part : ExportM α} (keeps : Keeps ExportState.core part) :
    Maintains (Ships request) part :=
  keeps.maintains fun core => core.project.shipping = request.project.shipping

theorem ships_prepareResources : Maintains (Ships request) (prepareResources tool request) := by
  apply maintains_prepareResources gives_renameFiles_shipping
  · exact fun text detail => ships_of_core (keeps_say request text detail)
  · exact maintains_waitForQueue tool request fun _ _ => id
  · exact ships_of_core (keeps_emptyWorkingDirectory tool request)
  · exact fun _ _ _ => id
  · exact fun _ _ _ before _ same => same.trans before

theorem enduring_ships : Enduring request (fun _ => True) (Ships request) where
  told := fun notice => ships_of_core (keeps_tell request notice)
  resumed := fun _ _ => id
  submitted := fun _ _ _ => id
  taken := fun _ _ => id
  met := fun _ _ => id

theorem ships_compileUnits : Maintains (Ships request) (compileUnits tool request) := by
  apply maintains_compileUnits
  apply enduring_ships.lasting.checked.compileUnits
  · exact fun _ _ => trivial
  · exact fun _ => id
  · exact ships_of_core (keeps_makeGenerated tool request)
  · exact fun _ _ _ => trivial

theorem ships_untilPacking : Maintains (Ships request) (untilPacking tool request) := by
  unfold untilPacking
  apply Meets.bind (ships_of_core (keeps_say request _ _))
  intro _
  have stages : Maintains (Ships request) (goThrough tool request
      [.validateTargets, .prepareResources, .compileUnits, .copyResources]) := by
    apply maintains_goThrough
    · exact fun _ _ => id
    · intro stage member
      simp only [List.mem_cons, List.not_mem_nil, or_false] at member
      rcases member with rfl | rfl | rfl | rfl
      · exact ships_of_core keeps_validateTargets
      · exact ships_prepareResources
      · exact ships_compileUnits
      · exact ships_of_core (keeps_copyResources tool request)
  apply Meets.bind stages
  intro _
  have enters : Maintains (Ships request) (enter .stripAndEncrypt) := fun _ => id
  apply Meets.bind enters
  intro _
  apply Meets.bind (ships_of_core (keeps_writeDescriptor tool request))
  intro _
  exact ships_of_core (keeps_say request _ _)

theorem Enduring.goThrough_link {property : ExportState → Prop}
    (endures : Enduring request (fun _ => True) property)
    (entered : ∀ state stages, property state → property { state with stages := stages }) :
    Maintains property (goThrough tool request [.link]) := by
  apply maintains_goThrough entered
  intro stage member
  cases List.mem_singleton.mp member
  exact endures.lasting.checked.link fun _ _ _ => trivial

/-! ## The container -/

theorem meets_packWorkingFiles_leaves (writes : Packer.WritesOutput tool.pack)
    {start : ExportState} (plain : PlainDirectory tool.workingDirectory here start.files)
    (free : start.files.node? (here ++ [containerName]) = none) :
    Meets (fun state => state = start) (packWorkingFiles tool request)
      (fun _ => Clean fun files => ∃ names after bytes,
        Package.listFiles start.files tool.workingDirectory = .ok names ∧
        tool.pack start.files names tool.workingDirectory
          (tool.workingDirectory.child containerName) = (after, .ok ()) ∧
        after.read (tool.workingDirectory.child containerName) = .ok bytes ∧
        files.node? (here ++ [containerName]) = some (.file bytes))
      fun _ _ => True := by
  unfold packWorkingFiles
  apply meets_get_bind
  intro state same
  subst same
  split
  · exact .throw fun _ _ => trivial
  · rename_i names listed
    have packs : Meets (fun other => other = state)
        (changingFiles fun files => tool.pack files names tool.workingDirectory
          (tool.workingDirectory.child containerName))
        (fun result other => other = state.withFiles (tool.pack state.files names
            tool.workingDirectory (tool.workingDirectory.child containerName)).1 ∧
          result = (tool.pack state.files names tool.workingDirectory
            (tool.workingDirectory.child containerName)).2)
        fun _ _ => True := meets_changingFiles
    apply Meets.bind packs
    intro result
    cases result with
    | error cause => exact .throw fun _ _ => trivial
    | ok =>
        generalize outcome : tool.pack state.files names tool.workingDirectory
          (tool.workingDirectory.child containerName) = packed
        rcases packed with ⟨after, result⟩
        apply Meets.of_start
        intro other packed
        rcases packed with ⟨rfl, rfl⟩
        rcases writes _ _ _ _ _ outcome with ⟨location, bytes, writable, rfl⟩
        rcases plain.writable_eq isName_containerName writable with ⟨rfl, leaf⟩
        have reads := read_put plain.kept.rooted writable bytes
        -- what is removed then are other entries
        let holds (files : FileTree) : Prop :=
          PlainDirectory tool.workingDirectory here files ∧
            files.node? (here ++ [containerName]) = some (.file bytes)
        have start : holds (state.files.put (here ++ [containerName]) (.file bytes)) :=
          ⟨plain.put isName_containerName leaf bytes, node?_put_self _ _ (by simp)⟩
        have step : ∀ name ∈ names, Meets (Clean holds) (removeWorkingFile tool request name)
            (fun _ => Clean holds) fun _ _ => True := by
          intro name member
          have isName := plain.isName_of_mem_listFiles listed member
          have apart : here ++ [containerName] ≠ here ++ [name] := by
            intro same
            rcases ((plain.listFiles_eq listed).2 name).mp member with ⟨content, taken⟩
            rw [← same, free] at taken
            cases taken
          have removes : ∀ files after, holds files →
              files.removeFile (tool.workingDirectory.child name) = .ok after → holds after := by
            intro files after left removed
            rcases left with ⟨stays, held⟩
            rcases stays.removeFile_eq isName removed with ⟨rfl, leaf⟩
            exact ⟨stays.erase leaf, (node?_erase_of_ne files apart).trans held⟩
          unfold removeWorkingFile
          exact meets_attempt removes
        apply (Meets.forM_keeping step).weaken
        · intro _ same _
          subst same
          exact start
        · intro _ final clean spotless
          exact ⟨names, _, bytes, listed, outcome, reads, (clean spotless).2⟩
        · exact fun _ _ => id

/-! ## The platform files -/

/-- Whether a path leads to an entry of a directory, or would. -/
def LeadsInto (here : Location) (files : FileTree) (path : Path) : Prop :=
  ∃ arrival name, files.place .target path = .ok arrival ∧ arrival.location = here ++ [name]

instance (here : Location) (files : FileTree) (path : Path) :
    Decidable (LeadsInto here files path) :=
  decidable_of_iff (∃ arrival ∈ (files.place .target path).toOption,
      arrival.location ≠ [] ∧ arrival.location.dropLast = here) (by
    constructor
    · intro leads
      rcases leads with ⟨arrival, arrives, below, rfl⟩
      have split := (List.dropLast_append_getLast below).symm
      exact ⟨arrival, _, eq_ok_of_toOption arrives, split⟩
    · intro leads
      rcases leads with ⟨arrival, name, arrives, split⟩
      exact ⟨arrival, by rw [arrives]; rfl, by simp [split], by simp [split]⟩)

/-- A directory that platform files have been copied to. Of those that have one name the last one
is left. -/
structure Placed (directory : Path) (here : Location) (before : FileTree) (done : List PlatformFile)
    (after : FileTree) : Prop where
  plain : PlainDirectory directory here after
  elsewhere : ∀ location, (∀ file ∈ done, location ≠ here ++ [file.name]) →
    after.node? location = before.node? location
  places : ∀ purpose path arrival,
    after.place purpose path = .ok arrival ↔ before.place purpose path = .ok arrival
  copies : ∀ front file back, done = front ++ file :: back →
    file.name ∉ back.map PlatformFile.name → ¬ LeadsInto here before file.source →
    ∃ content, before.read file.source = .ok content ∧
      after.node? (here ++ [file.name]) = some (.file content)

section Placed

variable {directory : Path} {before files after : FileTree} {done : List PlatformFile}

theorem placed_nil (plain : PlainDirectory directory here before) :
    Placed directory here before [] before where
  plain := plain
  elsewhere _ _ := rfl
  places _ _ _ := .rfl
  copies front _ _ same := by
    cases front with
    | nil => cases same
    | cons => cases same

theorem Placed.find_before (placed : Placed directory here before done after) {path : Path}
    (outside : ¬ LeadsInto here before path) {location : Location} {node : Node}
    (found : after.find true path = .ok (location, node)) :
    (∀ name, location ≠ here ++ [name]) ∧ before.find true path = .ok (location, node) := by
  rcases find_eq_ok_iff.mp found with ⟨isOpen, arrives, taken, allowed⟩
  have arrived := (placed.places _ _ _).mp arrives
  have elsewhere (name : String) : location ≠ here ++ [name] :=
    fun same => outside ⟨_, name, arrived, same⟩
  rw [placed.elsewhere location fun file _ => elsewhere file.name] at taken
  exact ⟨elsewhere, find_eq_ok_iff.mpr ⟨isOpen, arrived, taken, allowed⟩⟩

theorem Placed.step (placed : Placed directory here before done files) {file : PlatformFile}
    (isName : IsName file.name)
    (copied : files.copy file.source (directory.child file.name) = .ok after) :
    Placed directory here before (done ++ [file]) after := by
  rcases placed.plain.copy_eq isName copied with
    ⟨location, held, content, found, writable, rfl, same⟩
  have leaf := (placed.plain.writable_eq isName writable).2
  have differ := leaf.differAt_put content
  refine ⟨placed.plain.put isName leaf content, ?_, ?_, ?_⟩
  · intro other outside
    have apart : other ≠ here ++ [file.name] := outside file (by simp)
    rw [node?_put_of_ne files _ apart]
    exact placed.elsewhere other fun earlier member =>
      outside earlier (List.mem_append_left _ member)
  · intro purpose path arrival
    rw [← placed.places]
    exact ⟨place_differAt differ.symm, place_differAt differ⟩
  · intro front other back split last outside
    rcases List.eq_nil_or_concat back with rfl | ⟨between, final, rfl⟩
    · rcases List.append_inj' split rfl with ⟨_, isLast⟩
      cases isLast
      rcases placed.find_before outside found with ⟨elsewhere, stood⟩
      refine ⟨held, read_eq_ok_iff.mpr ⟨location, stood⟩, ?_⟩
      rw [same (elsewhere _), node?_put_self files _ (by simp)]
    · have whole : done ++ [file] = (front ++ other :: between) ++ [final] := by simpa using split
      rcases List.append_inj' whole rfl with ⟨earlier, isLast⟩
      cases isLast
      rw [List.concat_eq_append, List.map_append, List.mem_append] at last
      have apart : here ++ [other.name] ≠ here ++ [file.name] := by
        intro same
        exact last (.inr (by simpa using same))
      rw [node?_put_of_ne files _ apart]
      exact placed.copies front other between earlier (fun member => last (.inl member)) outside

end Placed

/-- Copying the platform files places all of them in the working directory. -/
theorem meets_copyPlatformFiles_places (quiet : request.IsQuiet) {start : ExportState}
    (ships : Ships request start)
    (plain : PlainDirectory tool.workingDirectory here start.files)
    (areNames : ∀ file ∈ platformFiles tool request.options request.project, IsName file.name) :
    Meets (fun state => state = start) (copyPlatformFiles tool request)
      (fun _ => Clean fun files => start.warnings = [] ∧ Placed tool.workingDirectory here
        start.files (platformFiles tool request.options request.project) files)
      fun _ _ => True := by
  let holds (done : List PlatformFile) (files : FileTree) : Prop :=
    start.warnings = [] ∧ Placed tool.workingDirectory here start.files done files
  let waits (state : ExportState) : Prop := Ships request state ∧ Clean (holds []) state
  have speaks (text : String) (detail : Option String) :
      Maintains waits (say request text detail) :=
    (ships_of_core (keeps_say request text detail)).and (maintains_say quiet text detail)
  have copies : Meets waits
      (do
        (platformFiles tool request.options (← get).project).forM (copyPlatformFile tool request)
        progress request (.percent 95))
      (fun _ => Clean (holds (platformFiles tool request.options request.project)))
      fun _ _ => True := by
    apply meets_get_bind
    intro told begun
    rcases begun with ⟨ships, clean⟩
    rw [platformFiles_of_shipping ships]
    have each : ∀ done file rest,
        platformFiles tool request.options request.project = done ++ file :: rest →
        Meets (Clean (holds done)) (copyPlatformFile tool request file)
          (fun _ => Clean (holds (done ++ [file]))) fun _ _ => True := by
      intro done file rest split
      have isName : IsName file.name := areNames file (split ▸ by simp)
      have copies : ∀ files after, holds done files →
          Package.copyFile files file.source (tool.workingDirectory.child file.name) = .ok after →
          holds (done ++ [file]) after := by
        intro files after before copied
        rcases before with ⟨spotless, placed⟩
        exact ⟨spotless, placed.step isName (copy_of_copyFile copied)⟩
      unfold copyPlatformFile
      exact meets_attempt copies
    apply Meets.bind ((Meets.forM each).start clean)
    intro _
    exact (maintains_progress quiet _).meets
  have begins : waits start := ⟨ships, fun spotless => ⟨spotless, placed_nil plain⟩⟩
  unfold copyPlatformFiles
  apply Meets.start _ begins
  apply Meets.bind (speaks _ _).meets
  intro _
  dsimp only
  split
  · apply Meets.bind (speaks _ _).meets
    intro _
    exact copies
  · exact copies

end GameExport
