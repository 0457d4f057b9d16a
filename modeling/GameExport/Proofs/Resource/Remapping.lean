import GameExport.Proofs.Generation.Links
import GameExport.Proofs.Project.FileReferences
import GameExport.Proofs.Resource.Exposing
import GameExport.Resource.Exposure

/-! # Projects whose files have been named

A project is walked through while names are still being given. A name once given stays, so the names
that there are in the end explain all that was replaced on the way. Main statement: every file that
the project refers to is replaced by the name that it has in the end, nothing else is changed, and
the code that is generated afterwards loads files by these names.
-/

namespace GameExport

namespace ResourceNames

def Keeps (before after : ResourceNames) : Prop :=
  ∀ file name, before.name? file = some name → after.name? file = some name

theorem Keeps.trans {before between after : ResourceNames} (first : Keeps before between)
    (second : Keeps between after) : Keeps before after :=
  fun file name known => second file name (first file name known)

/-- What stands for a path once names have been given. An empty path stays. -/
def newName (names : ResourceNames) (files : FileTree) (base : Path) (path : String) : String :=
  if path = "" then "" else (names.name? (resolve files base path)).getD ""

/-- A part of a walk replaces the paths that it meets as the names in the end do, whatever names are
given after it, and gives names to exactly the files of these paths. -/
structure Replaces (files : FileTree) (base : Path) {α : Type} (part : StateM ResourceNames α)
    (paths : List String) (value : (String → String) → α) : Prop where
  keeps : ∀ before, Keeps before (part before).2
  replaced : ∀ before final, Keeps (part before).2 final →
    (part before).1 = value (final.newName files base)
  recorded : ∀ before parts, parts ∈ (part before).2.originals ↔ parts ∈ before.originals ∨
    ∃ path ∈ paths, path ≠ "" ∧ (resolve files base path).components = parts

namespace Replaces

variable {files : FileTree} {base : Path} {α β : Type} {part : StateM ResourceNames α}
  {paths more : List String} {value : (String → String) → α}

theorem of_eq (replaces : Replaces files base part paths value) (same : paths = more) :
    Replaces files base part more value := same ▸ replaces

theorem pure (given : α) : Replaces files base (pure given) [] fun _ => given := by
  constructor
  · exact fun _ _ _ known => known
  · exact fun _ _ _ => rfl
  · intro before parts
    simp only [List.not_mem_nil, false_and, exists_false, or_false]
    rfl

theorem bind {next : α → StateM ResourceNames β} {others : α → (String → String) → β}
    (first : Replaces files base part paths value)
    (second : ∀ given, Replaces files base (next given) more (others given)) :
    Replaces files base (part >>= next) (paths ++ more)
      fun rename => others (value rename) rename := by
  have ran (before : ResourceNames) :
      (part >>= next) before = next (part before).1 (part before).2 := rfl
  constructor
  · intro before
    rw [ran]
    exact (first.keeps before).trans ((second _).keeps _)
  · intro before final kept
    rw [ran] at kept ⊢
    rw [(second _).replaced _ final kept,
      first.replaced before final (((second _).keeps _).trans kept)]
  · intro before parts
    rw [ran, (second _).recorded, first.recorded]
    simp only [List.mem_append, or_and_right, exists_or, or_assoc]

theorem map (replaces : Replaces files base part paths value) (next : α → β) :
    Replaces files base (do Pure.pure (next (← part))) paths fun rename => next (value rename) :=
  (replaces.bind fun given => .pure (next given)).of_eq (List.append_nil _)

theorem mapM {act : α → StateM ResourceNames β} {paths : α → List String}
    {value : α → (String → String) → β} (items : List α)
    (each : ∀ item, Replaces files base (act item) (paths item) (value item)) :
    Replaces files base (items.mapM act) (items.flatMap paths)
      fun rename => items.map fun item => value item rename := by
  induction items with
  | nil => exact .pure []
  | cons item rest induction =>
      rw [List.mapM_cons]
      exact (each item).bind fun first => induction.map (first :: ·)

end Replaces

/-! ## From a path to a project -/

section

variable (files : FileTree) (base : Path)

theorem replaces_expose (path : String) :
    Replaces files base (expose files base path) [path] fun rename => rename path := by
  by_cases empty : path = ""
  · subst empty
    constructor
    · exact fun _ _ _ known => known
    · intro before final _
      rw [run_expose_empty, newName, if_pos rfl]
    · simp [run_expose_empty]
  · constructor
    · intro before file name known
      rw [run_expose empty]
      exact name?_give_of_known known _
    · intro before final kept
      rw [run_expose empty] at kept ⊢
      have named := name?_give before (resolve files base path) (resolve files base path)
      rw [if_pos (Path.same_iff.mpr rfl)] at named
      rw [newName, if_neg empty, kept _ _ named, Option.getD_some]
    · intro before parts
      rw [run_expose empty, mem_originals_give]
      simp [empty, eq_comm, or_comm]

theorem replaces_argument (argument : Argument) :
    Replaces files base (argument.renameFile (expose files base)) argument.file?.toList
      fun rename => argument.mapFile rename := by
  cases argument with
  | value text => exact .pure _
  | file path => exact (replaces_expose files base path).map Argument.file

theorem replaces_instruction (instruction : Instruction) :
    Replaces files base (instruction.renameFiles (expose files base)) instruction.files
      fun rename => instruction.mapFiles rename := by
  have arguments := Replaces.mapM instruction.arguments (replaces_argument files base)
  have met : instruction.arguments.flatMap (fun argument => argument.file?.toList) =
      instruction.files := (List.filterMap_eq_flatMap_toList _ _).symm
  exact (arguments.map fun arguments => { instruction with arguments := arguments }).of_eq met

mutual
theorem replaces_event : ∀ event : Event,
    Replaces files base (event.renameFiles (expose files base)) event.files
      fun rename => event.mapFiles rename
  | .standard instructions subEvents =>
      (Replaces.mapM instructions (replaces_instruction files base)).bind fun instructions =>
        (replaces_events subEvents).map (Event.standard instructions)
  | .link target => .pure (Event.link target)
  | .code text dependencies subEvents =>
      (replaces_events subEvents).map (Event.code text dependencies)
  | .comment text => .pure (Event.comment text)

theorem replaces_events : ∀ events : List Event,
    Replaces files base (renameFilesIn (expose files base) events) (filesIn events)
      fun rename => mapFilesIn rename events
  | [] => .pure []
  | event :: rest =>
      (replaces_event event).bind fun event => (replaces_events rest).map (event :: ·)
end

theorem replaces_object (object : GameObject) :
    Replaces files base (object.renameFiles (expose files base)) object.resources
      fun rename => object.mapFiles rename := by
  have resources := Replaces.mapM object.resources (replaces_expose files base)
  exact (resources.map fun resources => { object with resources := resources }).of_eq
    (List.flatMap_singleton' _)

theorem replaces_resource (resource : Resource) :
    Replaces files base (resource.renameFile (expose files base)) resource.files
      fun rename => resource.mapFile rename := by
  unfold Resource.renameFile Resource.files Resource.mapFile
  split
  · exact (replaces_expose files base resource.file).map fun file =>
      { resource with file := file }
  · exact .pure _

theorem replaces_scene (scene : Scene) :
    Replaces files base (scene.renameFiles (expose files base)) scene.files
      fun rename => scene.mapFiles rename := by
  have objects := Replaces.mapM scene.objects (replaces_object files base)
  have events := replaces_events files base scene.events
  exact objects.bind fun objects =>
    events.map fun events => { scene with objects := objects, events := events }

theorem replaces_sheet (sheet : ExternalEvents) :
    Replaces files base (sheet.renameFiles (expose files base)) (filesIn sheet.events)
      fun rename => sheet.mapFiles rename := by
  have events := replaces_events files base sheet.events
  exact events.map fun events => { sheet with events := events }

theorem replaces_project (project : Project) :
    Replaces files base (project.renameFiles (expose files base) fun _ => pure ()) project.files
      fun rename => project.mapFiles rename := by
  have resources := Replaces.mapM project.resources (replaces_resource files base)
  have scenes := Replaces.mapM project.scenes (replaces_scene files base)
  have sheets := Replaces.mapM project.externalEvents (replaces_sheet files base)
  have objects := Replaces.mapM project.objects (replaces_object files base)
  exact resources.bind fun resources => scenes.bind fun scenes => sheets.bind fun sheets =>
    objects.map fun objects =>
      { project with
        resources := resources
        scenes := scenes
        externalEvents := sheets
        objects := objects }

end

end ResourceNames

/-! ## Generated code -/

namespace Generation

theorem perform_mem_itemsOf {instruction : Instruction} {events : List Event} :
    .statement (.perform instruction) ∈ itemsOf events ↔ instruction.Stands events := by
  rw [mem_itemsOf]
  constructor
  · rintro ⟨event, stands, member⟩
    cases event with
    | standard instructions subEvents =>
        refine ⟨instructions, subEvents, stands, ?_⟩
        simpa [ownItems] using member
    | link other => simp [ownItems] at member
    | code text dependencies subEvents => cases subEvents <;> simp [ownItems] at member
    | comment text => simp [ownItems] at member
  · rintro ⟨instructions, subEvents, stands, member⟩
    exact ⟨_, stands, by simpa [ownItems] using member⟩

/-- Code loads a file at one of its calls of the runtime. Native code is copied as it is, so a file
that it names itself does not count. -/
def Source.Loads (code : Source) (path : String) : Prop :=
  ∃ instruction, .perform instruction ∈ code.body.map Placed.statement ∧
    .file path ∈ instruction.arguments

theorem Source.Loads.refersTo {project : Project} {compiled : NameSet} {unit : UnitName}
    {code : Source} {path : String} (loads : code.Loads path)
    (written : source project compiled unit = .ok code) : project.RefersTo path := by
  obtain ⟨instruction, member, needs⟩ := loads
  obtain ⟨home, _, laidOut⟩ := (ofEvent_mem_body (of_source_eq_ok written).2 rfl).mp member
  obtain ⟨instructions, subEvents, stands, isOne⟩ := perform_mem_itemsOf.mp laidOut
  exact .instruction (Project.hasEvents_eventsOf stands)
    ⟨instruction, ⟨instructions, subEvents, stands, isOne⟩, needs⟩

end Generation

/-! ## The remapped project -/

/-- How a project whose files have been named, and the names, come from the project before. -/
structure Project.Remaps (files : FileTree) (base : Path) (project remapped : Project)
    (names : ResourceNames) : Prop where
  /-- Every path is replaced by the name of its file, and nothing else is changed. -/
  replaced : remapped = project.mapFiles (names.newName files base)
  named : ∀ path, project.RefersTo path → path ≠ "" →
    ∃ name, names.name? (ResourceNames.resolve files base path) = some name
  /-- The files that have names are those that the project refers to. -/
  recorded : ∀ parts, parts ∈ names.originals ↔ ∃ path, project.RefersTo path ∧ path ≠ "" ∧
    (ResourceNames.resolve files base path).components = parts
  /-- Code that is generated for the new project loads files by their names. -/
  loads : ∀ unit compiled text, Generation.generate remapped unit compiled = .ok text →
    ∃ code, Generation.source remapped compiled unit = .ok code ∧ code.text = text ∧
      ∀ path, code.Loads path → path = "" ∨ ∃ entry ∈ names.entries, entry.2 = path

/-- Naming the files of a project, starting with no names, replaces all of them. -/
theorem Project.renameFiles_remaps (files : FileTree) (base : Path) (project : Project) :
    let result :=
      (project.renameFiles (ResourceNames.expose files base) fun _ => pure ()).run .empty
    project.Remaps files base result.1 result.2 := by
  intro result
  have walked := ResourceNames.replaces_project files base project
  have replaced : result.1 = project.mapFiles (result.2.newName files base) :=
    walked.replaced .empty result.2 fun _ _ known => known
  have recorded (parts : List Path.Component) : parts ∈ result.2.originals ↔
      ∃ path, project.RefersTo path ∧ path ≠ "" ∧
        (ResourceNames.resolve files base path).components = parts := by
    have recorded := walked.recorded .empty parts
    simp only [mem_files] at recorded
    exact recorded.trans (or_iff_right List.not_mem_nil)
  have named (path : String) (refers : project.RefersTo path) (notEmpty : path ≠ "") :
      ∃ name, result.2.name? (ResourceNames.resolve files base path) = some name := by
    rw [← Option.ne_none_iff_exists', ne_eq, ResourceNames.name?_eq_none_iff, not_not, recorded]
    exact ⟨path, refers, notEmpty, rfl⟩
  refine ⟨replaced, named, recorded, ?_⟩
  intro unit compiled text generated
  rw [Generation.generate] at generated
  cases written : Generation.source result.1 compiled unit with
  | error error =>
      rw [written] at generated
      cases generated
  | ok code =>
      rw [written] at generated
      refine ⟨code, rfl, Except.ok.inj generated, ?_⟩
      intro path loads
      have refers := loads.refersTo written
      rw [replaced, refersTo_mapFiles] at refers
      obtain ⟨old, refers, rfl⟩ := refers
      by_cases empty : old = ""
      · exact .inl (by rw [ResourceNames.newName, if_pos empty])
      · obtain ⟨name, known⟩ := named old refers empty
        rw [ResourceNames.newName, if_neg empty, known, Option.getD_some]
        obtain ⟨entry, found, same⟩ := Option.map_eq_some_iff.mp known
        exact .inr ⟨entry, List.mem_of_find?_eq_some found, same⟩

end GameExport
